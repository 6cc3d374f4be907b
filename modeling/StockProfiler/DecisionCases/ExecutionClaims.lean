import Mathlib.Algebra.Notation.Lemmas
import StockProfiler.DecisionCases.ExecutionConservation

/-!
# What an execution keeps claimed

A reservation is released only when nothing can be bought for it any more. Until
then its claim covers what remains of it and what its open orders may still buy.
-/

namespace StockProfiler.DecisionCases

open PositionManagement Portfolio

/-- The quantity that a claim holds. -/
def claimedQuantity (claim : Option AllocationCommitment) : ℚ := (claim.bind (·.quantity)).getD 0

/-- The cash that a claim holds: its principal, its cost and its hold. -/
def claimedCash (claim : Option AllocationCommitment) : ℚ :=
  claim.elim 0 fun c => c.principal + c.purchaseCost + c.reconciliationCashHold

/-- A settlement keeps what its reservation still needs. -/
structure NeverUnderReserves (ctx : DecimalContext) (facts : SettlementContext)
    (reservation : AllocationCommitment) (settlement : Settlement) : Prop where
  reservationId : settlement.row.reservationId = reservation.commitmentId
  claim_id : ∀ claim ∈ settlement.claim, claim.commitmentId = reservation.commitmentId
  /-- A claim covers what remains, unless it may be released, and what open orders may buy. -/
  quantity : max
      (if mayRelease facts reservation settlement.row.filledQuantity
        settlement.row.remainingQuantity then 0 else settlement.row.remainingQuantity)
      (ctx.sum ((linkedOrders facts.orders reservation.commitmentId).map
        (·.remainingQuantity.getD 0))) ≤ claimedQuantity settlement.claim
  /-- In exact arithmetic a claim covers the cash that the broker reserved for open orders. -/
  cash : ctx = .exact → ((linkedOrders facts.orders reservation.commitmentId).map
    (·.reservedCash.getD 0)).sum ≤ claimedCash settlement.claim
  /-- Nothing is open or unknown about a reservation that is released. -/
  released : settlement.released →
    (∀ order ∈ relatedOrders facts.orders reservation.commitmentId, ¬order.status.isUnfinished) ∧
      (∀ p ∈ facts.orders, p.1.securityId = reservation.securityId →
        p.2.classification ≠ .unknown) ∧
      ∀ fill ∈ facts.fills, fill.securityId = reservation.securityId →
        fill.classification ≠ .unknown
  exclusive : settlement.released → settlement.claim = none
  /-- Only a reservation of a security with unknown orders is neither released nor claimed. -/
  covered : ¬settlement.released → settlement.claim = none →
    unknownOn facts.orders reservation.securityId ∧ settlement.row.remainingQuantity = 0 ∧
      linkedOrders facts.orders reservation.commitmentId = []

section OpenOrders

variable {ctx : DecimalContext} {ledger : DecisionLedger} {scope : ResultAccessScope}
  {command : CandidateExecutionCommand} {confirmation : CandidateConfirmationOutcome}
  {previouslyWithdrawn : List String} {snapshot : ReconciledPositionSnapshot}
  {facts : SettlementContext}

theorem openQuantity_pos (order : BrokerExecutionOrder) :
    0 < openQuantity order ∧ order.remainingQuantity.getD 0 ≤ openQuantity order := by
  unfold openQuantity
  cases hremaining : order.remainingQuantity with
  | none => exact ⟨order.quantity_pos, order.quantity_pos.le⟩
  | some remaining =>
    have hnonneg := order.remainingQuantity_nonneg remaining hremaining
    by_cases hzero : remaining = 0
    · subst hzero
      exact ⟨order.quantity_pos, order.quantity_pos.le⟩
    · have hkept : (some remaining).filter (· ≠ 0) = some remaining := by simp [hzero]
      rw [hkept]
      exact ⟨lt_of_le_of_ne hnonneg (Ne.symm hzero), le_rfl⟩

theorem checked_of_attributed
    (h : Attributed ctx ledger scope command confirmation previouslyWithdrawn snapshot facts)
    {p : BrokerExecutionOrder × AttributedOrder} (hp : p ∈ facts.orders) : p.1 ∈ command.orders ∧
      checkBrokerOrder ctx command snapshot p.1 = .ok ⟨⟩ := by
  obtain ⟨order, horder, hattribute⟩ := forall₂_mem_right (mapM_eq_ok.mp h.orders) hp
  obtain ⟨rfl, -⟩ := attributeOrder_inv hattribute
  obtain ⟨confirmedAt, historyStartAt, hchecked⟩ := h.checked
  simp only [checkBrokerFacts, bind_eq_ok, require_eq_ok] at hchecked
  obtain ⟨⟨⟩, -, ⟨⟩, -, ⟨⟩, -, ⟨⟩, -, ⟨⟩, -, ⟨⟩, -, ⟨⟩, -, hchecked⟩ := hchecked
  exact ⟨horder, forM_eq_ok.mp hchecked p.1 horder⟩

theorem mem_linkedOrders
    (h : Attributed ctx ledger scope command confirmation previouslyWithdrawn snapshot facts)
    {id : String} {order : BrokerExecutionOrder} (horder : order ∈ relatedOrders facts.orders id)
    (hopen : order.status.isUnfinished) : order ∈ linkedOrders facts.orders id := by
  obtain ⟨p, hp, rfl⟩ := List.mem_map.mp horder
  obtain ⟨-, hchecked⟩ := checked_of_attributed h (List.mem_filter.mp hp).1
  simp only [checkBrokerOrder, bind_eq_ok, require_eq_ok] at hchecked
  obtain ⟨⟨⟩, ⟨hside, -⟩, -⟩ := hchecked
  exact List.mem_filter.mpr ⟨horder, decide_eq_true ⟨hside, hopen⟩⟩

end OpenOrders

section Settlement

variable {ctx : DecimalContext} {facts : SettlementContext} {reservation : AllocationCommitment}
  {settlement : Settlement} {priceCap filled remaining : ℚ}

theorem settleReservation_inv (h : settleReservation ctx facts reservation = .ok settlement) :
    ∃ accepted priceCap, reservation.quantity = some accepted ∧
      let filled := filledQuantityOf ctx facts.fills reservation.commitmentId
      let remaining := max 0 (ctx.sub accepted filled)
      let amounts := claimAmounts ctx facts reservation priceCap filled remaining
      settlement.row.reservationId = reservation.commitmentId ∧
      settlement.row.securityId = reservation.securityId ∧
      settlement.row.state = rowState facts reservation filled remaining ∧
      settlement.row.filledQuantity = filled ∧ settlement.row.remainingQuantity = remaining ∧
      settlement.claim = (if amounts.quantity ≠ 0 ∨ amounts.cashHold ≠ 0 then
        some (claimOf ctx facts reservation amounts) else none) ∧
      (settlement.released ↔ mayRelease facts reservation filled remaining ∧
        amounts.quantity = 0 ∧ amounts.cashHold = 0) := by
  simp only [settleReservation, bind_eq_ok, known_eq_ok] at h
  obtain ⟨accepted, haccepted, priceCap, -, ⟨⟩, -, h⟩ := h
  obtain rfl := (Except.ok.inj h).symm
  refine ⟨accepted, priceCap, haccepted, rfl, rfl, rfl, rfl, rfl, rfl, ?_⟩
  simp only [not_or, not_not, decide_eq_true_eq]

theorem le_claimAmounts_quantity (hremaining : 0 ≤ remaining) :
    let amounts := claimAmounts ctx facts reservation priceCap filled remaining
    max (if mayRelease facts reservation filled remaining then 0 else remaining)
        (ctx.sum ((linkedOrders facts.orders reservation.commitmentId).map
          (·.remainingQuantity.getD 0))) ≤ amounts.quantity ∧ 0 ≤ amounts.quantity := by
  intro amounts
  have hkept : 0 ≤ if mayRelease facts reservation filled remaining then 0 else remaining := by
    split
    · exact le_rfl
    · exact hremaining
  refine ⟨max_le_max le_rfl (ctx.sum_le_sum ?_), le_max_of_le_left hkept⟩
  rw [List.forall₂_map_left_iff, List.forall₂_map_right_iff, List.forall₂_same]
  exact fun order _ => (openQuantity_pos order).2

theorem linkedOrders_eq_nil
    (h : (claimAmounts ctx facts reservation priceCap filled remaining).quantity = 0) :
    linkedOrders facts.orders reservation.commitmentId = [] := by
  by_contra hne
  have hpos : 0 < ctx.sum ((linkedOrders facts.orders reservation.commitmentId).map
      openQuantity) := by
    refine ctx.sum_pos ?_ (fun hnil => hne (List.map_eq_nil_iff.mp hnil))
    intro quantity hquantity
    obtain ⟨order, -, rfl⟩ := List.mem_map.mp hquantity
    exact (openQuantity_pos order).1
  exact absurd h (hpos.trans_le (le_max_right _ _)).ne'

/-- A claim holds the quantity that was computed, if there is a claim. -/
theorem claimedQuantity_eq {amounts : ClaimAmounts} (hnonneg : 0 ≤ amounts.quantity) :
    claimedQuantity (if amounts.quantity ≠ 0 ∨ amounts.cashHold ≠ 0 then
      some (claimOf ctx facts reservation amounts) else none) = amounts.quantity := by
  by_cases hzero : amounts.quantity = 0
  · have hquantity : (claimOf ctx facts reservation amounts).quantity = none := by
      simp [claimOf, hzero]
    rw [hzero]
    split
    · rw [claimedQuantity, Option.bind_some, hquantity]
      rfl
    · rfl
  · have hpos : 0 < amounts.quantity := lt_of_le_of_ne hnonneg (Ne.symm hzero)
    have hquantity : (claimOf ctx facts reservation amounts).quantity = some amounts.quantity := by
      simp [claimOf, hpos]
    rw [if_pos (.inl hzero), claimedQuantity, Option.bind_some, hquantity]
    rfl

/-- In exact arithmetic the hold covers what principal and cost leave of the broker's cash. -/
theorem reservedCash_le_amounts :
    let amounts := claimAmounts .exact facts reservation priceCap filled remaining
    ((linkedOrders facts.orders reservation.commitmentId).map (·.reservedCash.getD 0)).sum ≤
      amounts.principal + amounts.purchaseCost + amounts.cashHold := by
  intro amounts
  have hhold : ((linkedOrders facts.orders reservation.commitmentId).map
      (·.reservedCash.getD 0)).sum - amounts.principal - amounts.purchaseCost ≤
        amounts.cashHold := by
    rw [← DecimalContext.exact_sum]
    exact le_max_right _ _
  linarith

theorem principal_add_hold_nonneg
    (hlinked : linkedOrders facts.orders reservation.commitmentId = []) :
    let amounts := claimAmounts .exact facts reservation priceCap filled remaining
    0 ≤ amounts.principal + amounts.cashHold := by
  intro amounts
  have hprincipal : 0 ≤ amounts.principal := by
    refine le_max_of_le_right ?_
    rw [hlinked]
    exact le_rfl
  rcases le_or_gt 0 reservation.purchaseCost with hcost | hcost
  · have hhold : 0 ≤ amounts.cashHold := by
      refine le_max_of_le_left (add_nonneg ?_ ?_)
      · exact ite_nonneg le_rfl (le_max_left _ _)
      · exact ite_nonneg hcost le_rfl
    exact add_nonneg hprincipal hhold
  · have hamounts := @reservedCash_le_amounts facts reservation priceCap filled remaining
    have hpurchase : amounts.purchaseCost = reservation.purchaseCost := if_pos hlinked
    rw [hlinked] at hamounts
    change (0 : ℚ) ≤ amounts.principal + amounts.purchaseCost + amounts.cashHold at hamounts
    linarith

/-- In exact arithmetic the claimed cash covers what the broker reserved. -/
theorem reservedCash_le_claimedCash :
    let amounts := claimAmounts .exact facts reservation priceCap filled remaining
    ((linkedOrders facts.orders reservation.commitmentId).map (·.reservedCash.getD 0)).sum ≤
      claimedCash (if amounts.quantity ≠ 0 ∨ amounts.cashHold ≠ 0 then
        some (claimOf .exact facts reservation amounts) else none) := by
  intro amounts
  have hamounts := @reservedCash_le_amounts facts reservation priceCap filled remaining
  by_cases hzero : amounts.quantity = 0
  · have hlinked := linkedOrders_eq_nil hzero
    have hnonneg : 0 ≤ amounts.principal + amounts.cashHold := principal_add_hold_nonneg hlinked
    rw [hlinked]
    split
    · have hcost : (claimOf .exact facts reservation amounts).purchaseCost = 0 := if_pos hzero
      rw [claimedCash, Option.elim_some, hcost, add_zero]
      exact hnonneg
    · exact le_rfl
  · have hcost : (claimOf .exact facts reservation amounts).purchaseCost = amounts.purchaseCost :=
      if_neg hzero
    rw [if_pos (.inl hzero), claimedCash, Option.elim_some, hcost]
    exact hamounts

/-- Every settlement of attributed facts keeps what its reservation needs. -/
theorem neverUnderReserves_settleReservation {ledger : DecisionLedger} {scope : ResultAccessScope}
    {command : CandidateExecutionCommand} {confirmation : CandidateConfirmationOutcome}
    {previouslyWithdrawn : List String} {snapshot : ReconciledPositionSnapshot}
    (hattributed : Attributed ctx ledger scope command confirmation previouslyWithdrawn snapshot
      facts) (h : settleReservation ctx facts reservation = .ok settlement) :
    NeverUnderReserves ctx facts reservation settlement := by
  obtain ⟨accepted, priceCap, -, hid, -, -, hfilled, hremaining, hclaim, hreleased⟩ :=
    settleReservation_inv h
  set filled := filledQuantityOf ctx facts.fills reservation.commitmentId
  set remaining := max 0 (ctx.sub accepted filled)
  set amounts := claimAmounts ctx facts reservation priceCap filled remaining with hamounts
  have hnonneg : 0 ≤ remaining := le_max_left _ _
  obtain ⟨hcovered, hquantity⟩ := @le_claimAmounts_quantity ctx facts reservation priceCap filled
    remaining hnonneg
  refine ⟨hid, ?_, ?_, ?_, ?_, ?_, ?_⟩
  · intro claim hmem
    rw [hclaim] at hmem
    split at hmem
    · exact Option.mem_some.mp hmem ▸ rfl
    · exact absurd hmem (Option.not_mem_none _)
  · rw [hclaim, hfilled, hremaining, claimedQuantity_eq hquantity]
    exact hcovered
  · rintro rfl
    rw [hclaim]
    exact reservedCash_le_claimedCash
  · intro hmay
    obtain ⟨hmay, -⟩ := hreleased.mp hmay
    simp only [mayRelease, Bool.not_eq_true', decide_eq_true_eq] at hmay
    obtain ⟨hknown, hclosed, -⟩ := hmay
    have horders : ∀ p ∈ facts.orders, p.1.securityId = reservation.securityId →
        p.2.classification ≠ .unknown := by
      intro p hp hsecurity hunknown
      exact List.any_eq_false.mp hknown p hp (decide_eq_true ⟨hsecurity, hunknown⟩)
    refine ⟨fun order horder => List.any_eq_false.mp hclosed order horder, horders, ?_⟩
    intro fill hfill hsecurity hunknown
    obtain ⟨p, hp, hpsecurity, hpunknown⟩ := (fillsAttributed_of_ok (nodup_reservationsOf _)
      hattributed.orders hattributed.fills).unknown fill hfill hunknown
    exact horders p hp (hpsecurity.trans hsecurity) hpunknown
  · intro hmay
    obtain ⟨-, hzero, hhold⟩ := hreleased.mp hmay
    rw [hclaim, if_neg (by simp [hzero, hhold])]
  · intro hnot hnone
    -- Nothing is claimed, so nothing is linked and nothing is kept.
    have hzero : amounts.quantity = 0 ∧ amounts.cashHold = 0 := by
      by_contra hne
      rw [hclaim, if_pos (by tauto)] at hnone
      exact nomatch hnone
    have hlinked := linkedOrders_eq_nil hzero.1
    have hmay : ¬mayRelease facts reservation filled remaining :=
      fun hmay => hnot (hreleased.mpr ⟨hmay, hzero⟩)
    have hkept : remaining = 0 := by
      have hle := (le_max_left _ _).trans (hcovered.trans_eq hzero.1)
      rw [if_neg hmay] at hle
      exact le_antisymm hle hnonneg
    refine ⟨?_, hremaining.trans hkept, hlinked⟩
    by_contra hknown
    refine hmay ?_
    simp only [mayRelease, hkept]
    simp only [Bool.not_eq_true] at hknown
    have hclosed : (relatedOrders facts.orders reservation.commitmentId).any
        (·.status.isUnfinished) = false := by
      refine List.any_eq_false.mpr fun order horder hopen => ?_
      have hmem := mem_linkedOrders hattributed horder hopen
      rw [hlinked] at hmem
      exact nomatch hmem
    simp [hknown, hclosed]

end Settlement

section Outcome

variable {facts : SettlementContext} {ctx : DecimalContext} {ledger : DecisionLedger}
  {case : FrozenDecisionCase} {outcome : CandidateExecutionOutcome}

/-- The orders of an outcome, each with its attribution. -/
def CandidateExecutionOutcome.attributedOrders (outcome : CandidateExecutionOutcome) :
    AttributedOrders := outcome.orders.zip outcome.orderAttributions

/-- The orders of a command, each with its attribution, are those that were attributed. -/
theorem zip_attributedOrders {scope : ResultAccessScope} {command : CandidateExecutionCommand}
    {confirmation : CandidateConfirmationOutcome} {previouslyWithdrawn : List String}
    {snapshot : ReconciledPositionSnapshot}
    (h : Attributed ctx ledger scope command confirmation previouslyWithdrawn snapshot facts) :
    facts.orders = facts.command.orders.zip (facts.orders.map Prod.snd) := by
  have horders : facts.command.orders = facts.orders.map Prod.fst := by
    have hfst := map_eq_map_of_forall₂ ((mapM_eq_ok.mp h.orders).imp
      fun order p hp => ((attributeOrder_inv hp).1.symm : id order = p.1))
    rw [h.command_eq, ← hfst, List.map_id]
  rw [horders, ← List.unzip_fst, ← List.unzip_snd, List.zip_unzip]

/-- What a reconciled outcome keeps claimed and what it releases. -/
structure KeepsClaims (ctx : DecimalContext) (ledger : DecisionLedger)
    (command : CandidateExecutionCommand) (confirmation : CandidateConfirmationOutcome)
    (outcome : CandidateExecutionOutcome) (facts : SettlementContext)
    (settlements : List Settlement) : Prop where
  orders : facts.orders = CandidateExecutionOutcome.attributedOrders outcome
  fills : facts.fills = outcome.fills
  withdrawn : facts.withdrawn = outcome.withdrawnReservationIds
  plan : (ledger.getFormalReportForEvent command.planEventId).bind
    (·.result.candidateAllocation) = some facts.plan
  expired : facts.expired = !entryWindowIsOpen ledger.sessionCloseOn facts.plan command.cutoffAt
  invalidated : facts.invalidated = decide (ledger.getCorrectionEvent command.planEventId ≠ none)
  settled : List.Forall₂ (NeverUnderReserves ctx facts) confirmation.reservations settlements
  rows : outcome.rows = settlements.map (·.row)
  claims : outcome.reservations = settlements.filterMap (·.claim)
  released : outcome.releasedReservationIds =
    (settlements.filter (·.released)).map (·.row.reservationId)
  /-- No reservation is both released and claimed. -/
  exclusive : (confirmation.reservations.map (·.commitmentId)).Nodup →
    ∀ reservation ∈ confirmation.reservations,
      reservation.commitmentId ∈ outcome.releasedReservationIds →
        reservation.commitmentId ∉ outcome.reservations.map (·.commitmentId)
  /-- A reservation that is neither has nothing left, and unknown orders on its security. -/
  covered : ∀ reservation ∈ confirmation.reservations,
    reservation.commitmentId ∈ outcome.releasedReservationIds ∨
      reservation.commitmentId ∈ outcome.reservations.map (·.commitmentId) ∨
      (unknownOn facts.orders reservation.securityId ∧
        linkedOrders facts.orders reservation.commitmentId = [] ∧
        ∃ row ∈ outcome.rows, row.reservationId = reservation.commitmentId ∧
          row.remainingQuantity = 0)

/-- No reservation is both released and claimed. -/
theorem not_released_and_claimed {reservations : List AllocationCommitment}
    {settlements : List Settlement}
    (hsettled : List.Forall₂ (NeverUnderReserves ctx facts) reservations settlements)
    (hnodup : (reservations.map (·.commitmentId)).Nodup) {id : String}
    (hreleased : id ∈ (settlements.filter (·.released)).map (·.row.reservationId)) :
    id ∉ (settlements.filterMap (·.claim)).map (·.commitmentId) := by
  intro hclaimed
  obtain ⟨s, hs, rfl⟩ := List.mem_map.mp hreleased
  obtain ⟨hs, hrel⟩ := List.mem_filter.mp hs
  obtain ⟨claim, hclaim, hid⟩ := List.mem_map.mp hclaimed
  obtain ⟨s', hs', hclaim⟩ := List.mem_filterMap.mp hclaim
  -- Both settlements have one identity, so they are the same one.
  have hids : settlements.map (·.row.reservationId) = reservations.map (·.commitmentId) :=
    (map_eq_map_of_forall₂ (hsettled.imp fun _ _ h => h.reservationId.symm)).symm
  rw [← hids] at hnodup
  obtain ⟨r', -, hr'⟩ := forall₂_mem_right hsettled hs'
  obtain ⟨r, -, hr⟩ := forall₂_mem_right hsettled hs
  have hsame : s'.row.reservationId = s.row.reservationId := by
    rw [hr'.reservationId, ← hr'.claim_id claim hclaim, hid]
  obtain rfl := List.inj_on_of_nodup_map hnodup hs' hs hsame
  rw [hr.exclusive hrel] at hclaim
  exact absurd hclaim (Option.some_ne_none _).symm

/-- A reconciled execution never keeps less than its reservations still need. -/
theorem reconciled_keepsClaims {businessPrerequisiteMet : Bool}
    (h : adjudicateCandidateExecution ctx ledger case businessPrerequisiteMet = some outcome)
    (hreconciled : outcome.disposition = .reconciled) :
    ∃ command scope confirmed confirmation facts settlements,
      case.candidateExecution = some command ∧ case.accessScope = some scope ∧
      executionSource ledger scope command businessPrerequisiteMet =
        some (confirmed, confirmation) ∧
      KeepsClaims ctx ledger command confirmation outcome facts settlements := by
  obtain ⟨command, scope, confirmed, confirmation, hcommand, hscope, hsource, hexecute⟩ :=
    reconciled_adjudicate h hreconciled
  obtain ⟨-, reconciled, hreconcile, -, rfl⟩ := reconciled_executeCandidates hexecute hreconciled
  obtain ⟨source, snapshot, facts, settlements, unassociated, hreport, hplan, hattributed,
    hsettlements, -, rfl⟩ := reconcileExecution_inv hreconcile
  have hsettled := hsettlements.imp fun _ _ hsettle =>
    neverUnderReserves_settleReservation hattributed hsettle
  refine ⟨command, scope, confirmed, confirmation, facts, settlements, hcommand, hscope, hsource,
    zip_attributedOrders hattributed, rfl, rfl, ?_, hattributed.expired,
    hattributed.invalidated, hsettled, rfl, rfl, rfl, ?_, ?_⟩
  · rw [hreport]
    exact hplan
  · exact fun hnodup reservation _ hreleased => not_released_and_claimed hsettled hnodup hreleased
  · intro reservation hreservation
    obtain ⟨s, hs, hkept⟩ := forall₂_mem_left hsettled hreservation
    by_cases hrel : s.released
    · exact .inl (List.mem_map.mpr ⟨s, List.mem_filter.mpr ⟨hs, hrel⟩, hkept.reservationId⟩)
    · cases hclaim : s.claim with
      | some claim =>
        exact .inr (.inl (List.mem_map.mpr ⟨claim, List.mem_filterMap.mpr ⟨s, hs, hclaim⟩,
          hkept.claim_id claim hclaim⟩))
      | none =>
        obtain ⟨hunknown, hremaining, hlinked⟩ := hkept.covered hrel hclaim
        exact .inr (.inr ⟨hunknown, hlinked, s.row, List.mem_map_of_mem hs, hkept.reservationId,
          hremaining⟩)

end Outcome

namespace SampleExecution

/-- The reservation is filled, and an order of unknown cause on its security was cancelled. -/
def unknownCause : DecisionLedger :=
  ledger [confirmationFact "E2" Literal.ten] (snapshot [entry "F1" 10 30])

/-- The execution of the fill and of the order of unknown cause. -/
def unknownCauseCase : FrozenDecisionCase :=
  case [order "O1" .filled (some "E2:S:A") Literal.ten 10 0,
    order "O2" .cancelled none Literal.ten 0 0] [fill "F1"]

/-- An open order for the last piece, for which the broker reserves more than digits can count. -/
def manyDigits : BrokerExecutionOrder :=
  { order "O1" .isOpen (some "E2:S:A") Literal.ten 9 1 with
    reservedCash := some (10 ^ 38 + 1)
    reservedCash_nonneg := by decide +kernel }

def openOrder : DecisionLedger :=
  ledger [confirmationFact "E2" Literal.ten]
    { snapshot [entry "F1" 9 30] with
      unfinishedOrders := [
        { orderId := "O1"
          securityId := "S"
          side := .buy
          remainingQuantity := some 1
          reservedCash := some (10 ^ 38 + 1)
          reservedCashSemantics := .brokerFinalReservedCash
          evidence := SampleBroker.evidence 50
          accountId := "A" }] }

def openOrderCase : FrozenDecisionCase := case [manyDigits] [fill "F1"]

end SampleExecution

open SampleExecution in
/-- What is kept claimed for an open order. -/
theorem sample_keepsClaims :
    ∃ outcome, adjudicateCandidateExecution .exact openOrder openOrderCase true = some outcome ∧
      outcome.disposition = .reconciled ∧
      ∃ command scope confirmed confirmation facts settlements,
        openOrderCase.candidateExecution = some command ∧
        openOrderCase.accessScope = some scope ∧
        executionSource openOrder scope command true = some (confirmed, confirmation) ∧
        KeepsClaims .exact openOrder command confirmation outcome facts settlements := by
  have hrun : (adjudicateCandidateExecution .exact openOrder openOrderCase true).any
      (·.disposition = .reconciled) := by decide +kernel
  obtain ⟨outcome, houtcome, hreconciled⟩ := (Option.any_eq_true _ _).mp hrun
  exact ⟨outcome, houtcome, of_decide_eq_true hreconciled,
    reconciled_keepsClaims houtcome (of_decide_eq_true hreconciled)⟩

open SampleExecution in
/-- A filled reservation of a security with an unknown order is neither released nor claimed; and
rounding claims less cash than the broker reserved. -/
theorem sample_claims_exceptions :
    (adjudicateCandidateExecution decimals unknownCause unknownCauseCase true).any (fun outcome =>
      outcome.disposition = .reconciled ∧ "E2:S:A" ∉ outcome.releasedReservationIds ∧
        "E2:S:A" ∉ outcome.reservations.map (·.commitmentId)) ∧
    (adjudicateCandidateExecution decimals openOrder openOrderCase true).any (fun outcome =>
      outcome.disposition = .reconciled ∧
        ¬10 ^ 38 + 1 ≤ (outcome.reservations.map fun claim =>
          claim.principal + claim.purchaseCost + claim.reconciliationCashHold).sum) := by
  decide +kernel

end StockProfiler.DecisionCases
