import StockProfiler.DecisionCases.LedgerRuns
import StockProfiler.Portfolio.AuthorizationRuns

/-!
# The chain of confirmations

The confirmations of one plan supersede each other one by one. Each keeps the
reservations of the one before it on the securities that it still accepts, and
releases the others. The id of a reservation joins three names by a separator that
the names may hold themselves.
-/

namespace StockProfiler.DecisionCases

open PositionManagement Portfolio

variable {run : List (HistoryStep LedgerInput DecisionEventFact)}

/-- A security and an account name a reservation. -/
def reservationKey (reservation : AllocationCommitment) : String × String :=
  (reservation.securityId, reservation.accountId)

/-- A security and an account name an accepted leg. -/
def acceptedLegKey (entry : CandidateAllocationRow × AcquisitionLeg) : String × String :=
  (entry.1.candidate.securityId, entry.2.route.accountId)

/-- The id of a new reservation, from its confirmation and its security and account. -/
def commitmentIdOf (eventId : String) (key : String × String) : String :=
  eventId ++ ":" ++ key.1 ++ ":" ++ key.2

/-- A security and an account whose names do not hold the separator of an id. -/
def SeparatorFree (key : String × String) : Prop :=
  ':' ∉ key.1.toList ∧ ':' ∉ key.2.toList

/-- A list falls into the parts before and after its last separator in one way. -/
theorem eq_of_append_separator {α : Type} {separator : α} {a b x y : List α} (hx : separator ∉ x)
    (hy : separator ∉ y) (h : a ++ separator :: x = b ++ separator :: y) : a = b ∧ x = y := by
  rcases List.append_eq_append_iff.mp h with ⟨d, rfl, hd⟩ | ⟨d, rfl, hd⟩
  · cases d with
    | nil => exact ⟨(List.append_nil a).symm, (List.cons.inj hd).2⟩
    | cons e d =>
      obtain ⟨-, rfl⟩ := List.cons.inj hd
      exact absurd (List.mem_append_right _ List.mem_cons_self) hx
  · cases d with
    | nil => exact ⟨List.append_nil b, (List.cons.inj hd).2.symm⟩
    | cons e d =>
      obtain ⟨-, rfl⟩ := List.cons.inj hd
      exact absurd (List.mem_append_right _ List.mem_cons_self) hy

/-- An id of names without separators gives the security and the account back. -/
theorem eq_of_commitmentIdOf {eventId eventId' : String} {key key' : String × String}
    (hkey : SeparatorFree key) (hkey' : SeparatorFree key')
    (h : commitmentIdOf eventId key = commitmentIdOf eventId' key') : key = key' := by
  have hlist := congrArg String.toList h
  simp only [commitmentIdOf, String.toList_append, List.append_assoc] at hlist
  change eventId.toList ++ ':' :: (key.1.toList ++ ':' :: key.2.toList) =
    eventId'.toList ++ ':' :: (key'.1.toList ++ ':' :: key'.2.toList) at hlist
  rw [← List.cons_append, ← List.cons_append, ← List.append_assoc, ← List.append_assoc] at hlist
  obtain ⟨hfront, haccount⟩ := eq_of_append_separator hkey.2 hkey'.2 hlist
  obtain ⟨-, hsecurity⟩ := eq_of_append_separator hkey.1 hkey'.1 hfront
  exact Prod.ext (String.toList_inj.mp hsecurity) (String.toList_inj.mp haccount)

section Confirm

variable {ctx : DecimalContext} {ledger : DecisionLedger} {services : ConfirmationServices}
  {command : CandidateConfirmationCommand} {scope : ResultAccessScope} {case : FrozenDecisionCase}
  {business : Bool} {outcome : CandidateConfirmationOutcome}

/-- What a confirmation establishes, given the confirmation before it. -/
structure Confirms (ctx : DecimalContext) (command : CandidateConfirmationCommand)
    (eventId : String) (plan : CandidateAllocationOutcome)
    (prior : Option CandidateConfirmationOutcome) (outcome : CandidateConfirmationOutcome) :
    Prop where
  seen : command.seenConfirmationId = prior.bind (·.confirmationId)
  withdraw : command.operation = .withdraw →
    ∀ entry ∈ choicesBySecurity command.choices, entry.2 = .accept →
      (choicesBySecurity (prior.elim [] (·.choices))).get? entry.1 = some .accept
  confirmationId : outcome.confirmationId = some eventId
  planId : outcome.planId = plan.planId
  choices : outcome.choices = command.choices
  supersedes : outcome.supersedesConfirmationId = prior.bind (·.confirmationId)
  released : outcome.releasedReservationIds =
    (releasedReservations command prior).map (·.commitmentId)
  reservations : List.Forall₂ (fun entry reservation =>
    reserve ctx eventId (retainedReservations prior) entry.1 entry.2 = .ok reservation)
      (acceptedLegs plan (choicesBySecurity command.choices)) outcome.reservations

theorem confirmablePlan_inv {plan : CandidateAllocationOutcome}
    (h : confirmablePlan ledger command scope business = .ok plan) :
    ∃ source, ledger.getFormalReportForEvent command.planEventId = some source ∧
      source.case.accessScope.any (scope.sameScopeAs ·) ∧
      source.result.candidateAllocation = some plan ∧ plan.planId = some command.planId ∧
      plan.portfolioId = some command.portfolioId := by
  simp only [confirmablePlan, bind_eq_ok, known_eq_ok, require_eq_ok,
    Option.filter_eq_some_iff] at h
  obtain ⟨source, ⟨hsource, hscope⟩, ⟨⟩, -, ⟨⟩, -, ⟨⟩, -, ⟨⟩, -, saved, ⟨hsaved, hplan⟩, ⟨⟩,
    hidentity, h⟩ := h
  cases h
  exact ⟨source, hsource, hscope, hsaved, (of_decide_eq_true hplan).2, hidentity.2.2.1⟩

/-- A confirmation acts on the saved plan that its command names. -/
theorem confirms_of_ok (h : confirmCandidates ctx ledger services command scope case business =
    .ok outcome) (hconfirmed : outcome.disposition = .confirmed) :
    ∃ source plan, ledger.getFormalReportForEvent command.planEventId = some source ∧
      source.case.accessScope.any (scope.sameScopeAs ·) ∧
      source.result.candidateAllocation = some plan ∧ plan.planId = some command.planId ∧
      plan.portfolioId = some command.portfolioId ∧
      Confirms ctx command case.decisionEventId plan
        ((latestConfirmation ledger scope command.portfolioId command.planId).bind
          (·.result.candidateConfirmation)) outcome := by
  unfold confirmCandidates at h
  obtain ⟨plan, hplan, h⟩ := bind_eq_ok.mp h
  obtain ⟨⟨⟩, -, h⟩ := bind_eq_ok.mp h
  dsimp only at h
  set prior := (latestConfirmation ledger scope command.portfolioId command.planId).bind
    (·.result.candidateConfirmation)
  obtain ⟨⟨⟩, hchoices, h⟩ := bind_eq_ok.mp h
  obtain ⟨⟨⟩, -, h⟩ := bind_eq_ok.mp h
  obtain ⟨⟨⟩, -, h⟩ := bind_eq_ok.mp h
  have hreserve : reservePlan ctx command case.decisionEventId plan prior = .ok outcome := by
    split at h
    · obtain ⟨⟨⟩, -, h⟩ := bind_eq_ok.mp h
      exact h
    · exact h
  obtain ⟨source, hsource, hscope, hresult, hplanId, hportfolio⟩ := confirmablePlan_inv hplan
  refine ⟨source, plan, hsource, hscope, hresult, hplanId, hportfolio, ?_⟩
  unfold reservePlan at hreserve
  split at hreserve
  · cases hreserve
    exact nomatch hconfirmed
  · obtain ⟨reservations, hreservations, hreserve⟩ := bind_eq_ok.mp hreserve
    cases hreserve
    simp only [checkChoices, bind_eq_ok, require_eq_ok] at hchoices
    obtain ⟨⟨⟩, hseen, ⟨⟩, -, ⟨⟩, -, hwithdraw⟩ := hchoices
    exact ⟨hseen, fun hop => (hwithdraw hop).2, rfl, rfl, rfl, rfl, rfl,
      mapM_eq_ok.mp hreservations⟩

end Confirm

section Reservations

variable {ctx : DecimalContext} {eventId : String} {row : CandidateAllocationRow}
  {leg : AcquisitionLeg} {prior : Option CandidateConfirmationOutcome}
  {reservation : AllocationCommitment}

theorem mem_of_retained {key : String × String}
    (h : (retainedReservations prior).get? key = some reservation) :
    reservation ∈ prior.elim [] (·.reservations) ∧ reservationKey reservation = key := by
  rw [retainedReservations, Dict.get?_ofLast] at h
  obtain ⟨row, hrow, heq⟩ := List.mem_map.mp (List.mem_reverse.mp (Dict.mem_of_get? h))
  obtain ⟨rfl, rfl⟩ := Prod.mk.inj heq
  exact ⟨hrow, rfl⟩

/-- When securities and accounts are distinct, every reservation before can be retained. -/
theorem retained_of_mem (hnodup : ((prior.elim [] (·.reservations)).map reservationKey).Nodup)
    (h : reservation ∈ prior.elim [] (·.reservations)) :
    (retainedReservations prior).get? (reservationKey reservation) = some reservation := by
  rw [retainedReservations, Dict.get?_ofLast]
  refine Dict.get?_of_mem ?_ (List.mem_reverse.mpr (List.mem_map.mpr ⟨reservation, h, rfl⟩))
  rw [Dict.keys, List.map_reverse, List.nodup_reverse, List.map_map]
  exact hnodup

section

variable (h : reserve ctx eventId (retainedReservations prior) row leg = .ok reservation)
include h

theorem reserve_retained {before : AllocationCommitment}
    (hbefore : (retainedReservations prior).get? (acceptedLegKey (row, leg)) = some before) :
    reservation = before := by
  unfold reserve at h
  dsimp only at h
  change (retainedReservations prior).get? (row.candidate.securityId, leg.route.accountId) =
    some before at hbefore
  rw [hbefore] at h
  exact (Except.ok.inj h).symm

/-- A reservation is on the security and the account of its leg. -/
theorem reservationKey_reserve : reservationKey reservation = acceptedLegKey (row, leg) := by
  cases hget : (retainedReservations prior).get? (acceptedLegKey (row, leg)) with
  | some before =>
    obtain rfl := reserve_retained h hget
    exact (mem_of_retained hget).2
  | none =>
    change (retainedReservations prior).get? (row.candidate.securityId, leg.route.accountId) =
      none at hget
    unfold reserve at h
    dsimp only at h
    rw [hget] at h
    dsimp only at h
    split at h
    · split at h
      · exact Except.ok.inj h ▸ rfl
      · exact nomatch h
    · exact nomatch h

/-- A reservation is the one that was made before, or its id names its confirmation. -/
theorem retained_or_named : reservation ∈ prior.elim [] (·.reservations) ∨
      reservation.commitmentId = commitmentIdOf eventId (reservationKey reservation) := by
  cases hget : (retainedReservations prior).get? (acceptedLegKey (row, leg)) with
  | some before =>
    obtain rfl := reserve_retained h hget
    exact .inl (mem_of_retained hget).1
  | none =>
    change (retainedReservations prior).get? (row.candidate.securityId, leg.route.accountId) =
      none at hget
    unfold reserve at h
    dsimp only at h
    rw [hget] at h
    dsimp only at h
    split at h
    · split at h
      · exact .inr (Except.ok.inj h ▸ rfl)
      · exact nomatch h
    · exact nomatch h

end

/-- The legs of accepted rows are some of the legs of a plan. -/
theorem sublist_acceptedLegs (plan : CandidateAllocationOutcome) (choices : Dict String Choice) :
    ((acceptedLegs plan choices).map acceptedLegKey).Sublist (legKeys plan.rows) := by
  have hkeys : (acceptedLegs plan choices).map acceptedLegKey = legKeys (plan.rows.filter fun row =>
      choices.get? row.candidate.securityId = some .accept) := by
    rw [acceptedLegs, legKeys, List.map_flatMap]
    refine List.flatMap_congr fun row _ => ?_
    rw [List.map_map]
    rfl
  rw [hkeys]
  exact List.Sublist.flatMap List.filter_sublist _

theorem mem_acceptedLegs {plan : CandidateAllocationOutcome} {choices : Dict String Choice}
    {entry : CandidateAllocationRow × AcquisitionLeg} :
    entry ∈ acceptedLegs plan choices ↔ entry.1 ∈ plan.rows ∧ entry.2 ∈ entry.1.legs ∧
      choices.get? entry.1.candidate.securityId = some .accept := by
  obtain ⟨row, leg⟩ := entry
  simp only [acceptedLegs, List.mem_flatMap, List.mem_filter, decide_eq_true_eq, List.mem_map,
    Prod.mk.injEq]
  constructor
  · rintro ⟨row, ⟨hrow, haccept⟩, leg, hleg, rfl, rfl⟩
    exact ⟨hrow, hleg, haccept⟩
  · rintro ⟨hrow, hleg, haccept⟩
    exact ⟨row, ⟨hrow, haccept⟩, leg, hleg, rfl, rfl⟩

end Reservations

/-- How a confirmation follows the one before it. -/
structure ConfirmationLink (prior : Option CandidateConfirmationOutcome)
    (command : CandidateConfirmationCommand) (outcome : CandidateConfirmationOutcome) : Prop where
  /-- Its command has seen the one before it, and no other. -/
  seen : command.seenConfirmationId = prior.bind (·.confirmationId)
  supersedes : outcome.supersedesConfirmationId = prior.bind (·.confirmationId)
  /-- The reservations before it are either kept as they are or released. -/
  partition : ∃ retained released : List AllocationCommitment,
    (prior.elim [] (·.reservations)).Perm (retained ++ released) ∧
      (∀ reservation ∈ retained, reservation ∈ outcome.reservations) ∧
      (∀ reservation ∈ released, reservation ∉ outcome.reservations) ∧
      outcome.releasedReservationIds = released.map (·.commitmentId)
  /-- A withdrawal adds no reservation. -/
  withdraw : command.operation = .withdraw →
    ∀ reservation ∈ outcome.reservations, reservation ∈ prior.elim [] (·.reservations)
  /-- No security is reserved twice in an account. -/
  unique : (outcome.reservations.map reservationKey).Nodup
  /-- A reservation that it adds has an id of its own name, security and account. -/
  named : ∀ reservation ∈ outcome.reservations, reservation ∈ prior.elim [] (·.reservations) ∨
    outcome.confirmationId.any fun id =>
      reservation.commitmentId = commitmentIdOf id (reservationKey reservation)

theorem map_reservationKey {ctx : DecimalContext} {command : CandidateConfirmationCommand}
    {eventId : String} {plan : CandidateAllocationOutcome}
    {prior : Option CandidateConfirmationOutcome} {outcome : CandidateConfirmationOutcome}
    (h : Confirms ctx command eventId plan prior outcome) :
    outcome.reservations.map reservationKey =
      (acceptedLegs plan (choicesBySecurity outcome.choices)).map acceptedLegKey := by
  rw [h.choices]
  exact (map_eq_map_of_forall₂ (h.reservations.imp fun _ _ hreserve =>
    (reservationKey_reserve hreserve).symm)).symm

/-- A confirmation of a plan without repeated legs follows the one before it. -/
theorem link_of_confirms {ctx : DecimalContext} {command : CandidateConfirmationCommand}
    {eventId : String} {plan : CandidateAllocationOutcome}
    {prior : Option CandidateConfirmationOutcome} {outcome : CandidateConfirmationOutcome}
    (hlegs : (legKeys plan.rows).Nodup) (h : Confirms ctx command eventId plan prior outcome)
    (hprior : ∀ last ∈ prior, ∃ before beforeId earlier,
      Confirms ctx before beforeId plan earlier last) : ConfirmationLink prior command outcome := by
  have hkeys := map_reservationKey h
  rw [h.choices] at hkeys
  have hbefore : (prior.elim [] (·.reservations)).map reservationKey =
      (acceptedLegs plan (choicesBySecurity (prior.elim [] (·.choices)))).map acceptedLegKey ∨
        prior = none := by
    cases prior with
    | none => exact .inr rfl
    | some last =>
      obtain ⟨before, beforeId, earlier, hlast⟩ := hprior last rfl
      exact .inl (map_reservationKey hlast)
  have hnodup : ((prior.elim [] (·.reservations)).map reservationKey).Nodup := by
    rcases hbefore with hbefore | rfl
    · rw [hbefore]
      exact hlegs.sublist (sublist_acceptedLegs plan _)
    · exact List.nodup_nil
  refine ⟨h.seen, h.supersedes, ⟨(prior.elim [] (·.reservations)).filter fun reservation =>
    (choicesBySecurity command.choices).get? reservation.securityId = some .accept,
      releasedReservations command prior, ?_, ?_, ?_, h.released⟩, ?_, ?_, ?_⟩
  · have hsplit := (List.filter_append_perm (fun reservation : AllocationCommitment =>
      decide ((choicesBySecurity command.choices).get? reservation.securityId = some .accept))
        (prior.elim [] (·.reservations))).symm
    refine hsplit.trans (List.Perm.append_left _ (List.Perm.of_eq ?_))
    refine List.filter_congr fun reservation _ => ?_
    exact (decide_not).symm
  · intro reservation hreservation
    obtain ⟨hmem, haccept⟩ := List.mem_filter.mp hreservation
    have hkey : reservationKey reservation ∈
        (prior.elim [] (·.reservations)).map reservationKey := List.mem_map_of_mem hmem
    -- The leg of the reservation is still accepted, so it keeps what it has.
    rcases hbefore with hbefore | rfl
    · rw [hbefore] at hkey
      obtain ⟨entry, hentry, hentryKey⟩ := List.mem_map.mp hkey
      obtain ⟨hrow, hleg, -⟩ := mem_acceptedLegs.mp hentry
      have hstill : entry ∈ acceptedLegs plan (choicesBySecurity command.choices) := by
        refine mem_acceptedLegs.mpr ⟨hrow, hleg, ?_⟩
        rw [show entry.1.candidate.securityId = reservation.securityId from
          congrArg Prod.fst hentryKey]
        exact of_decide_eq_true haccept
      obtain ⟨kept, hkept, hreserve⟩ := forall₂_mem_left h.reservations hstill
      have hget := retained_of_mem hnodup hmem
      rw [← hentryKey] at hget
      exact reserve_retained hreserve hget ▸ hkept
    · exact nomatch hmem
  · intro reservation hreleased hkept
    obtain ⟨-, hnot⟩ := List.mem_filter.mp hreleased
    have hkey : reservationKey reservation ∈ outcome.reservations.map reservationKey :=
      List.mem_map_of_mem hkept
    rw [hkeys] at hkey
    obtain ⟨entry, hentry, hentryKey⟩ := List.mem_map.mp hkey
    have haccept := (mem_acceptedLegs.mp hentry).2.2
    rw [show entry.1.candidate.securityId = reservation.securityId from
      congrArg Prod.fst hentryKey] at haccept
    exact of_decide_eq_true hnot haccept
  · intro hwithdraw reservation hreservation
    obtain ⟨entry, hentry, hreserve⟩ := forall₂_mem_right h.reservations hreservation
    obtain ⟨hrow, hleg, haccept⟩ := mem_acceptedLegs.mp hentry
    have hprevious := h.withdraw hwithdraw _ (Dict.mem_of_get? haccept) rfl
    have hkey : acceptedLegKey entry ∈
        (acceptedLegs plan (choicesBySecurity (prior.elim [] (·.choices)))).map acceptedLegKey :=
      List.mem_map_of_mem (mem_acceptedLegs.mpr ⟨hrow, hleg, hprevious⟩)
    rcases hbefore with hbefore | rfl
    · rw [← hbefore] at hkey
      obtain ⟨previous, hmem, hpreviousKey⟩ := List.mem_map.mp hkey
      have hget := retained_of_mem hnodup hmem
      rw [hpreviousKey] at hget
      exact reserve_retained hreserve hget ▸ hmem
    · exact nomatch hprevious
  · rw [hkeys]
    exact hlegs.sublist (sublist_acceptedLegs plan _)
  · intro reservation hreservation
    obtain ⟨entry, -, hreserve⟩ := forall₂_mem_right h.reservations hreservation
    refine (retained_or_named hreserve).imp_right fun hnamed => ?_
    rw [h.confirmationId]
    exact decide_eq_true hnamed

/-- The confirmation of a plan that an event saves, with its command. -/
def confirmationOf (planId : String) (fact : DecisionEventFact) :
    Option (CandidateConfirmationCommand × CandidateConfirmationOutcome) := do
  guard (fact.correctsEventId = none)
  let command ← fact.case.candidateConfirmation
  let outcome ← fact.result.candidateConfirmation
  guard (outcome.disposition = .confirmed ∧ outcome.planId = some planId)
  return (command, outcome)

/-- The confirmations of a plan, in order. -/
def confirmationsOf (planId : String) (events : List DecisionEventFact) :
    List (CandidateConfirmationCommand × CandidateConfirmationOutcome) :=
  events.filterMap (confirmationOf planId)

theorem confirmationOf_eq_some {planId : String} {fact : DecisionEventFact}
    {entry : CandidateConfirmationCommand × CandidateConfirmationOutcome} :
    confirmationOf planId fact = some entry ↔ fact.correctsEventId = none ∧
      fact.case.candidateConfirmation = some entry.1 ∧
      fact.result.candidateConfirmation = some entry.2 ∧ entry.2.disposition = .confirmed ∧
      entry.2.planId = some planId := by
  obtain ⟨command, outcome⟩ := entry
  simp only [confirmationOf, bind_eq_some, Option.guard_eq_some', pure_eq_some, Prod.mk.injEq]
  constructor
  · rintro ⟨⟨⟩, hcorrects, command, hcommand, outcome, houtcome, ⟨⟩, hconfirmed, rfl, rfl⟩
    exact ⟨hcorrects, hcommand, houtcome, hconfirmed.1, hconfirmed.2⟩
  · rintro ⟨hcorrects, hcommand, houtcome, hconfirmed⟩
    exact ⟨⟨⟩, hcorrects, command, hcommand, outcome, houtcome, ⟨⟩, hconfirmed, rfl, rfl⟩

/-- A saved plan with the scope that it was saved for. -/
structure SavedPlan (events : List DecisionEventFact) (planId : String)
    (plan : CandidateAllocationOutcome) (scope : ResultAccessScope) : Prop where
  saved : ∃ source ∈ events, source.result.candidateAllocation = some plan ∧
    source.case.accessScope.any (scope.sameScopeAs ·)
  planId_eq : plan.planId = some planId

/-- What the events of a run have in common. -/
structure SavedEvents (ctx : DecimalContext) (events : List DecisionEventFact) : Prop where
  ids : (events.map (·.decisionEventId)).Nodup
  plans : ∀ fact ∈ events, ∀ plan, fact.result.candidateAllocation = some plan →
    (∀ id ∈ plan.planId, id = fact.decisionEventId) ∧ (legKeys plan.rows).Nodup
  confirmations : ∀ fact ∈ events, ∀ outcome, fact.result.candidateConfirmation = some outcome →
    outcome.disposition = .confirmed →
      ∃ command scope plan prior, fact.case.candidateConfirmation = some command ∧
        fact.case.accessScope = some scope ∧ fact.correctsEventId = none ∧
        SavedPlan events command.planId plan scope ∧
        plan.portfolioId = some command.portfolioId ∧
        Confirms ctx command fact.decisionEventId plan prior outcome

section Saved

variable {ctx : DecimalContext} {events : List DecisionEventFact} {planId : String}
  {plan plan' : CandidateAllocationOutcome} {scope scope' : ResultAccessScope}

theorem SavedPlan.mono {fact : DecisionEventFact} (h : SavedPlan events planId plan scope) :
    SavedPlan (events ++ [fact]) planId plan scope := by
  obtain ⟨⟨source, hsource, hplan, hscope⟩, hid⟩ := h
  exact ⟨⟨source, List.mem_append_left _ hsource, hplan, hscope⟩, hid⟩

theorem sameOwner_of_sameScope {a b c : ResultAccessScope} (hac : a.sameScopeAs c)
    (hbc : b.sameScopeAs c) : a.sameOwnerAs b := by
  simp only [ResultAccessScope.sameScopeAs, ResultAccessScope.sameOwnerAs, decide_eq_true_eq]
    at hac hbc ⊢
  exact ⟨hac.2.1.trans hbc.2.1.symm, hac.2.2.trans hbc.2.2.symm⟩

/-- A plan is saved once, so that it has one content and one owner. -/
theorem SavedPlan.unique (hevents : SavedEvents ctx events) (h : SavedPlan events planId plan scope)
    (h' : SavedPlan events planId plan' scope') : plan = plan' ∧ scope.sameOwnerAs scope' := by
  obtain ⟨⟨source, hsource, hplan, hscope⟩, hid⟩ := h
  obtain ⟨⟨source', hsource', hplan', hscope'⟩, hid'⟩ := h'
  have hsourceId := (hevents.plans source hsource plan hplan).1 planId hid
  have hsourceId' := (hevents.plans source' hsource' plan' hplan').1 planId hid'
  obtain rfl := List.inj_on_of_nodup_map hevents.ids hsource hsource'
    (hsourceId.symm.trans hsourceId')
  obtain ⟨saved, hsaved, hsame⟩ := (Option.any_eq_true _ _).mp hscope
  obtain ⟨saved', hsaved', hsame'⟩ := (Option.any_eq_true _ _).mp hscope'
  obtain rfl := Option.some.inj (hsaved.symm.trans hsaved')
  exact ⟨Option.some.inj (hplan.symm.trans hplan'), sameOwner_of_sameScope hsame hsame'⟩

end Saved

section Runs

variable {handoffEvidence : String → Option (List PositionEvidence)} {ctx : DecimalContext}
  {events : List DecisionEventFact} {input : LedgerInput} {fact : DecisionEventFact}
  {outcome : CandidateConfirmationOutcome}

theorem ok_of_confirmed {attempt : Except Failure CandidateConfirmationOutcome}
    (h : answer .blocked attempt = some outcome) (hconfirmed : outcome.disposition = .confirmed) :
    attempt = .ok outcome := by
  cases attempt with
  | ok result => exact congrArg _ (Option.some.inj h)
  | error failure =>
    cases failure with
    | blocked reasons =>
      cases h
      exact nomatch hconfirmed
    | arithmetic => exact nomatch h
    | raised => exact nomatch h

theorem eq_of_finalize {ledger : DecisionLedger} {services : ConfirmationServices}
    {command : CandidateConfirmationCommand} {scope : ResultAccessScope} {now : Instant}
    {adjudicated : CandidateConfirmationOutcome}
    (h : finalizeCandidateConfirmation ledger services command scope now handoffEvidence
      adjudicated = some outcome) (hconfirmed : outcome.disposition = .confirmed) :
    adjudicated = outcome := by
  unfold finalizeCandidateConfirmation at h
  split at h
  · exact Option.some.inj h
  · have hok := ok_of_confirmed h hconfirmed
    obtain ⟨⟨⟩, -, hok⟩ := bind_eq_ok.mp hok
    split at hok
    · obtain ⟨⟨⟩, -, hok⟩ := bind_eq_ok.mp hok
      exact Except.ok.inj hok
    · exact Except.ok.inj hok

theorem commitConfirmation_inv {services atCommit : ConfirmationServices}
    (h : commitConfirmation ctx events input services atCommit handoffEvidence = some outcome)
    (hconfirmed : outcome.disposition = .confirmed) :
    ∃ command scope plan, input.case.candidateConfirmation = some command ∧
      input.case.accessScope = some scope ∧ SavedPlan events command.planId plan scope ∧
      plan.portfolioId = some command.portfolioId ∧
      Confirms ctx command input.case.decisionEventId plan
        ((latestConfirmation (input.view.ledger events) scope command.portfolioId
          command.planId).bind (·.result.candidateConfirmation)) outcome := by
  simp only [commitConfirmation, bind_eq_some] at h
  obtain ⟨command, hcommand, scope, hscope, adjudicated, hadjudicated, hfinalize⟩ := h
  obtain rfl := eq_of_finalize hfinalize hconfirmed
  simp only [adjudicateCandidateConfirmation, bind_eq_some]
    at hadjudicated
  obtain ⟨command', hcommand', scope', hscope', hanswer⟩ := hadjudicated
  obtain rfl := Option.some.inj (hcommand.symm.trans hcommand')
  obtain rfl := Option.some.inj (hscope.symm.trans hscope')
  obtain ⟨source, plan, hsource, hsourceScope, hplan, hplanId, hportfolio, hconfirms⟩ :=
    confirms_of_ok (ok_of_confirmed hanswer hconfirmed) hconfirmed
  refine ⟨command, scope, plan, hcommand, hscope, ⟨⟨source, ?_, hplan, hsourceScope⟩, hplanId⟩,
    hportfolio, hconfirms⟩
  unfold DecisionLedger.getFormalReportForEvent at hsource
  split at hsource
  · exact List.mem_of_find?_eq_some hsource
  · exact nomatch hsource

/-- One commit keeps the saved confirmations in a chain. -/
theorem savedEvents_append (hevents : SavedEvents ctx events)
    (h : commitFact ctx events input = some fact) : SavedEvents ctx (events ++ [fact]) := by
  obtain ⟨hfresh, hcase, hcommitted, horiginal⟩ := committed_of_commitFact h
  refine ⟨?_, ?_, ?_⟩
  · rw [List.map_append, List.map_singleton, List.nodup_append]
    refine ⟨hevents.ids, List.nodup_singleton _, fun id hid other hother heq => ?_⟩
    obtain rfl := List.mem_singleton.mp hother
    exact hfresh (heq ▸ hid)
  · intro other hother plan hplan
    rcases List.mem_append.mp hother with hother | hother
    · exact hevents.plans other hother plan hplan
    · obtain rfl := List.mem_singleton.mp hother
      cases hcommitted with
      | allocation saved hresult hid hlegs =>
        rw [hresult] at hplan
        cases hplan
        exact ⟨hid, hlegs⟩
      | confirmation services atCommit handoffEvidence outcome hresult hcommit =>
        rw [hresult] at hplan
        exact nomatch hplan
      | execution outcome hresult hcommit =>
        rw [hresult] at hplan
        exact nomatch hplan
      | other hallocation hconfirmation hexecution =>
        rw [hallocation] at hplan
        exact nomatch hplan
  · intro other hother outcome houtcome hconfirmed
    rcases List.mem_append.mp hother with hother | hother
    · obtain ⟨command, scope, plan, prior, hcommand, hscope, hcorrects, hsaved, hrest⟩ :=
        hevents.confirmations other hother outcome houtcome hconfirmed
      exact ⟨command, scope, plan, prior, hcommand, hscope, hcorrects, hsaved.mono, hrest⟩
    · obtain rfl := List.mem_singleton.mp hother
      obtain ⟨hid, hcorrects⟩ := horiginal (.inr (.inl (by rw [houtcome]; exact nofun)))
      cases hcommitted with
      | allocation saved hresult hid hlegs =>
        rw [hresult] at houtcome
        exact nomatch houtcome
      | confirmation services atCommit handoffEvidence saved hresult hcommit =>
        rw [hresult] at houtcome
        cases houtcome
        obtain ⟨command, scope, plan, hcommand, hscope, hsaved, hportfolio, hconfirms⟩ :=
          commitConfirmation_inv hcommit hconfirmed
        rw [← hcase] at hcommand hscope hconfirms
        rw [← hid] at hconfirms
        exact ⟨command, scope, plan, _, hcommand, hscope, hcorrects, hsaved.mono, hportfolio,
          hconfirms⟩
      | execution outcome hresult hcommit =>
        rw [hresult] at houtcome
        exact nomatch houtcome
      | other hallocation hconfirmation hexecution =>
        rw [hconfirmation] at houtcome
        exact nomatch houtcome

theorem savedEvents_outcomes
    (h : HistoryRun (fun events input fact => commitFact ctx events input = some fact) run) :
    SavedEvents ctx (outcomes run) := by
  induction h with
  | nil => exact ⟨List.nodup_nil, fun _ h => absurd h List.not_mem_nil,
      fun _ h => absurd h List.not_mem_nil⟩
  | snoc h hstep ih =>
    rw [outcomes_append, outcomes_singleton]
    exact savedEvents_append ih hstep

end Runs

section Chain

variable {confirmations : List (CandidateConfirmationCommand × CandidateConfirmationOutcome)}
  {ctx : DecimalContext} {planId : String}

/-- The latest confirmation that a command reads is the last one of the plan. -/
theorem latestConfirmation_eq {ledger : DecisionLedger} {scope : ResultAccessScope}
    {portfolioId : String} {plan : CandidateAllocationOutcome}
    (hevents : SavedEvents ctx ledger.events) (hplan : SavedPlan ledger.events planId plan scope)
    (hportfolio : plan.portfolioId = some portfolioId) :
    (latestConfirmation ledger scope portfolioId planId).bind (·.result.candidateConfirmation) =
      ((confirmationsOf planId ledger.events).getLast?).map Prod.snd := by
  rw [confirmationsOf, ← List.getLast?_map, List.map_filterMap, ← latest_eq_getLast?,
    latestConfirmation, DecisionLedger.candidateConfirmationHistory,
    DecisionLedger.originalEventFacts, List.filter_filter, ← List.filter_reverse, List.find?_filter]
  refine bind_find?_reverse (fun fact hfact => ?_) (fun fact _ hfact => ?_)
  · simp only [Bool.false_eq_true, false_or, Bool.decide_and, Bool.and_eq_true,
      decide_eq_true_eq]
    cases hof : confirmationOf planId fact with
    | none =>
      refine (if_neg ?_).symm
      rintro ⟨⟨⟨-, hcommand, hconfirmed⟩, hcorrects⟩, hid⟩
      obtain ⟨command, hcommand, -⟩ := (Option.any_eq_true _ _).mp hcommand
      obtain ⟨outcome, houtcome, hconfirmed⟩ := (Option.any_eq_true _ _).mp hconfirmed
      rw [houtcome] at hid
      have hsome : confirmationOf planId fact = some (command, outcome) :=
        confirmationOf_eq_some.mpr ⟨hcorrects, hcommand, houtcome,
          of_decide_eq_true hconfirmed, of_decide_eq_true hid⟩
      exact nomatch hof.symm.trans hsome
    | some entry =>
      obtain ⟨hcorrects, hcommand, houtcome, hconfirmed, hid⟩ := confirmationOf_eq_some.mp hof
      obtain ⟨command, scope', plan', prior, hcommand', hscope', -, hplan', hportfolio',
        hconfirms⟩ := hevents.confirmations fact hfact entry.2 houtcome hconfirmed
      obtain rfl := Option.some.inj (hcommand'.symm.trans hcommand)
      -- The confirmed plan is the saved one, so its owner and portfolio are those asked for.
      have hplanId : entry.1.planId = planId :=
        Option.some.inj (hplan'.planId_eq.symm.trans (hconfirms.planId.symm.trans hid))
      rw [hplanId] at hplan'
      obtain ⟨rfl, howner⟩ := SavedPlan.unique hevents hplan' hplan
      refine houtcome.symm.trans (if_pos ⟨⟨⟨?_, ?_, ?_⟩, hcorrects⟩, ?_⟩).symm
      · rw [hscope']
        exact howner
      · rw [hcommand]
        exact decide_eq_true (Option.some.inj (hportfolio'.symm.trans hportfolio))
      · rw [houtcome]
        exact decide_eq_true hconfirmed
      · rw [houtcome]
        exact decide_eq_true hid
  · simp only [Bool.false_eq_true, false_or, Bool.decide_and, Bool.and_eq_true,
        decide_eq_true_eq] at hfact
    obtain ⟨outcome, houtcome, -⟩ := (Option.any_eq_true _ _).mp hfact.2
    rw [houtcome]
    rfl

section Step

variable {events : List DecisionEventFact} {input : LedgerInput} {fact : DecisionEventFact}
  {entry : CandidateConfirmationCommand × CandidateConfirmationOutcome}
  (hevents : SavedEvents ctx events) (h : commitFact ctx events input = some fact)
include hevents h

/-- The confirmation that a step appends acts on the plan after the last confirmation of it. -/
theorem confirms_of_commitFact (hof : confirmationOf planId fact = some entry) :
    ∃ scope plan, input.case.candidateConfirmation = some entry.1 ∧
      SavedPlan events planId plan scope ∧
      Confirms ctx entry.1 fact.decisionEventId plan
        (((confirmationsOf planId events).getLast?).map Prod.snd) entry.2 := by
  obtain ⟨hcorrects, hcommand, houtcome, hconfirmed, hid⟩ := confirmationOf_eq_some.mp hof
  obtain ⟨-, hcase, hcommitted, horiginal⟩ := committed_of_commitFact h
  rw [hcase] at hcommand
  cases hcommitted with
  | allocation saved hresult hsavedId hlegs =>
    rw [hresult] at houtcome
    exact nomatch houtcome
  | execution outcome hresult hcommit =>
    rw [hresult] at houtcome
    exact nomatch houtcome
  | other hallocation hconfirmation hexecution =>
    rw [hconfirmation] at houtcome
    exact nomatch houtcome
  | confirmation services atCommit handoffEvidence saved hresult hcommit =>
    rw [hresult] at houtcome
    cases houtcome
    obtain ⟨command, scope, plan, hcommand', -, hplan, hportfolio, hconfirms⟩ :=
      commitConfirmation_inv hcommit hconfirmed
    obtain rfl := Option.some.inj (hcommand'.symm.trans hcommand)
    have hplanId : entry.1.planId = planId :=
      Option.some.inj (hplan.planId_eq.symm.trans (hconfirms.planId.symm.trans hid))
    rw [hplanId] at hplan hconfirms
    have heventId : fact.decisionEventId = input.case.decisionEventId := by
      rw [← hcase]
      exact (horiginal (.inr (.inl (by rw [hresult]; exact Option.some_ne_none _)))).1
    have hlatest := @latestConfirmation_eq ctx planId (input.view.ledger events) scope
      entry.1.portfolioId plan hevents hplan hportfolio
    refine ⟨scope, plan, hcommand, hplan, ?_⟩
    rw [heventId]
    exact hlatest ▸ hconfirms

/-- A confirmation that a step appends is one of the plan that its command names. -/
theorem confirmationOf_of_commitFact (hcommand : input.case.candidateConfirmation = some entry.1)
    (houtcome : fact.result.candidateConfirmation = some entry.2)
    (hconfirmed : entry.2.disposition = .confirmed) :
    confirmationOf entry.1.planId fact = some entry := by
  obtain ⟨command, scope, plan, prior, hcommand', -, hcorrects, hplan, -, hconfirms⟩ :=
    (savedEvents_append hevents h).confirmations fact
      (List.mem_append_right _ (List.mem_singleton_self _)) entry.2 houtcome hconfirmed
  rw [(committed_of_commitFact h).2.1, hcommand] at hcommand'
  cases hcommand'
  refine confirmationOf_eq_some.mpr ⟨hcorrects, ?_, houtcome, hconfirmed, ?_⟩
  · rw [(committed_of_commitFact h).2.1]
    exact hcommand
  · exact hconfirms.planId.trans hplan.planId_eq

/-- The confirmation that a step appends follows the last confirmation of the plan. -/
theorem link_of_commitFact (hof : confirmationOf planId fact = some entry) :
    ConfirmationLink (((confirmationsOf planId events).getLast?).map Prod.snd) entry.1 entry.2 := by
  obtain ⟨scope, plan, -, hplan, hconfirms⟩ := confirms_of_commitFact hevents h hof
  obtain ⟨source, hsource, hsaved, -⟩ := hplan.saved
  refine link_of_confirms (hevents.plans source hsource plan hsaved).2 hconfirms
    fun last hlast => ?_
  -- The last confirmation is of the same plan, as a plan is saved once.
  obtain ⟨previous, hprevious, rfl⟩ := Option.map_eq_some_iff.mp hlast
  obtain ⟨saved, hmem, hofPrevious⟩ :=
    List.mem_filterMap.mp (List.mem_of_getLast? hprevious)
  obtain ⟨-, -, houtcome, hconfirmed, hid⟩ := confirmationOf_eq_some.mp hofPrevious
  obtain ⟨command, scope', plan', earlier, -, -, -, hplan', -, hconfirms'⟩ :=
    hevents.confirmations saved hmem previous.2 houtcome hconfirmed
  have hplanId : command.planId = planId :=
    Option.some.inj (hplan'.planId_eq.symm.trans (hconfirms'.planId.symm.trans hid))
  rw [hplanId] at hplan'
  obtain ⟨rfl, -⟩ := SavedPlan.unique hevents hplan' hplan
  exact ⟨command, saved.decisionEventId, earlier, hconfirms'⟩

end Step

/-- Every confirmation in a list follows the one before it. -/
def Linked (confirmations :
    List (CandidateConfirmationCommand × CandidateConfirmationOutcome)) : Prop :=
  ∀ before entry after, confirmations = before ++ entry :: after →
    ConfirmationLink ((before.getLast?).map Prod.snd) entry.1 entry.2

theorem linked_outcomes
    (h : HistoryRun (fun events input fact => commitFact ctx events input = some fact) run) :
    Linked (confirmationsOf planId (outcomes run)) := by
  induction h with
  | nil => exact fun before entry after heq => absurd heq (by simp [confirmationsOf])
  | @snoc run input fact h hstep ih =>
    intro before entry after heq
    rw [outcomes_append, outcomes_singleton, confirmationsOf, List.filterMap_append] at heq
    cases hof : confirmationOf planId fact with
    | none =>
      rw [List.filterMap_cons_none hof, List.filterMap_nil, List.append_nil] at heq
      exact ih before entry after heq
    | some last =>
      rw [List.filterMap_cons_some hof, List.filterMap_nil] at heq
      rcases split_snoc heq with ⟨-, rfl, rfl⟩ | ⟨front, -, heq⟩
      · exact link_of_commitFact (savedEvents_outcomes h) hstep hof
      · exact ih before entry front heq

theorem confirmationId_eq {events : List DecisionEventFact} (hevents : SavedEvents ctx events)
    {fact : DecisionEventFact} (hfact : fact ∈ events)
    {entry : CandidateConfirmationCommand × CandidateConfirmationOutcome}
    (hof : confirmationOf planId fact = some entry) :
    entry.2.confirmationId = some fact.decisionEventId := by
  obtain ⟨-, -, houtcome, hconfirmed, -⟩ := confirmationOf_eq_some.mp hof
  obtain ⟨command, scope, plan, prior, -, -, -, -, -, hconfirms⟩ :=
    hevents.confirmations fact hfact entry.2 houtcome hconfirmed
  exact hconfirms.confirmationId

theorem nodup_confirmationIds {events : List DecisionEventFact} (hevents : SavedEvents ctx events) :
    ((confirmationsOf planId events).map (·.2.confirmationId)).Nodup := by
  have hids : ((events.map (·.decisionEventId)).map some).Nodup :=
    hevents.ids.map (Option.some_injective _)
  rw [List.map_map] at hids
  exact hids.sublist (Dict.map_filterMap_sublist fun fact hfact _ hof =>
    confirmationId_eq hevents hfact hof)

/-- Every reservation in a chain has the id that the confirmation which made it gave it. -/
theorem Linked.commitmentId_eq (h : Linked confirmations) :
    ∀ entry ∈ confirmations, ∀ reservation ∈ entry.2.reservations,
      ∃ id ∈ confirmations.filterMap (·.2.confirmationId),
        reservation.commitmentId = commitmentIdOf id (reservationKey reservation) := by
  induction confirmations using List.reverseRecOn with
  | nil => exact fun entry hentry => nomatch hentry
  | append_singleton front last ih =>
    have hfront : Linked front := fun before entry after heq =>
      h before entry (after ++ [last]) (by rw [heq, List.append_assoc, List.cons_append])
    have hearlier : ∀ entry ∈ front, ∀ reservation ∈ entry.2.reservations,
        ∃ id ∈ (front ++ [last]).filterMap (·.2.confirmationId),
          reservation.commitmentId = commitmentIdOf id (reservationKey reservation) := by
      intro entry hentry reservation hreservation
      obtain ⟨id, hid, hnamed⟩ := ih hfront entry hentry reservation hreservation
      rw [List.filterMap_append]
      exact ⟨id, List.mem_append_left _ hid, hnamed⟩
    intro entry hentry reservation hreservation
    rcases List.mem_append.mp hentry with hentry | hentry
    · exact hearlier entry hentry reservation hreservation
    · obtain rfl := List.mem_singleton.mp hentry
      rcases (h front entry [] rfl).named reservation hreservation with hbefore | hnamed
      · -- What it keeps is named by the confirmation before it.
        cases hlast : front.getLast? with
        | none =>
          rw [hlast] at hbefore
          exact nomatch hbefore
        | some previous =>
          rw [hlast] at hbefore
          exact hearlier previous (List.mem_of_getLast? hlast) reservation hbefore
      · obtain ⟨id, hid, hnamed⟩ := (Option.any_eq_true _ _).mp hnamed
        exact ⟨id, List.mem_filterMap.mpr ⟨entry, List.mem_append_right _ hentry, hid⟩,
          of_decide_eq_true hnamed⟩

/-- The ids in a confirmation of a chain differ when no name of theirs holds a separator. -/
theorem Linked.nodup_commitmentIds (h : Linked confirmations)
    {entry : CandidateConfirmationCommand × CandidateConfirmationOutcome}
    (hentry : entry ∈ confirmations)
    (hfree : ∀ reservation ∈ entry.2.reservations, SeparatorFree (reservationKey reservation)) :
    (entry.2.reservations.map (·.commitmentId)).Nodup := by
  obtain ⟨before, after, heq⟩ := List.append_of_mem hentry
  have hkeys := (h before entry after heq).unique
  refine List.Nodup.map_on (fun first hfirst second hsecond hid => ?_) (List.Nodup.of_map _ hkeys)
  obtain ⟨id, -, hnamed⟩ := h.commitmentId_eq entry hentry first hfirst
  obtain ⟨id', -, hnamed'⟩ := h.commitmentId_eq entry hentry second hsecond
  exact List.inj_on_of_nodup_map hkeys hfirst hsecond (eq_of_commitmentIdOf (hfree first hfirst)
    (hfree second hsecond) (hnamed.symm.trans (hid.trans hnamed')))

/-- **One chain.** The confirmations of a plan supersede each other one by one: each names the
latest one before it, keeps its reservations as they are or releases them, and no command that
names another one is confirmed. An id joins the names of a confirmation of the plan, a security
and an account, and no two reservations of a confirmation share one unless a security or an
account holds the separator of ids. -/
theorem ledgerRun_confirmationChain (ctx : DecimalContext) (inputs : List LedgerInput)
    (planId : String) : let confirmations := confirmationsOf planId (ledgerEvents ctx inputs)
    Linked confirmations ∧
      (confirmations.map (·.2.confirmationId)).Nodup ∧
      (∀ entry ∈ confirmations, entry.2.confirmationId.isSome) ∧
      (∀ entry ∈ confirmations, ∀ reservation ∈ entry.2.reservations,
        ∃ id ∈ confirmations.filterMap (·.2.confirmationId),
          reservation.commitmentId = commitmentIdOf id (reservationKey reservation)) ∧
      (∀ entry ∈ confirmations,
        (∀ reservation ∈ entry.2.reservations, SeparatorFree (reservationKey reservation)) →
          (entry.2.reservations.map (·.commitmentId)).Nodup) ∧
      ∀ e ∈ traceSome (commitFact ctx) inputs, ∀ command ∈ e.input.case.candidateConfirmation,
        command.planId = planId →
        command.seenConfirmationId ≠
          ((confirmationsOf planId e.before).getLast?).bind (·.2.confirmationId) →
        ∀ outcome ∈ e.outcome.result.candidateConfirmation, outcome.disposition ≠ .confirmed := by
  have hrun := historyRun_traceSome (commitFact ctx) inputs
  have hevents := savedEvents_outcomes hrun
  have hlinked : Linked (confirmationsOf planId (ledgerEvents ctx inputs)) := linked_outcomes hrun
  refine ⟨hlinked, nodup_confirmationIds hevents, fun entry hentry => ?_, hlinked.commitmentId_eq,
    fun entry hentry => hlinked.nodup_commitmentIds hentry, ?_⟩
  · obtain ⟨fact, hfact, hof⟩ := List.mem_filterMap.mp hentry
    rw [confirmationId_eq hevents hfact hof]
    rfl
  · rintro e he command hcommand rfl hseen outcome houtcome hconfirmed
    have hbefore : SavedEvents ctx e.before :=
      hrun.forall_mem (P := fun e => SavedEvents ctx e.before)
        (fun h _ _ => savedEvents_outcomes h) e he
    have hstep := hrun.step_of_mem he
    have hof := @confirmationOf_of_commitFact ctx _ _ _ (command, outcome) hbefore hstep hcommand
      houtcome hconfirmed
    refine hseen ((link_of_commitFact hbefore hstep hof).seen.trans ?_)
    rw [Option.bind_map]
    rfl

end Chain

namespace SampleConfirmation

open SampleExecution

def view (t : Instant) : LedgerView where
  observedAt := t
  sessionCloseOn := fun _ _ => some 1000

def input (case : FrozenDecisionCase) (t : Instant) (operation : LedgerOperation) :
    LedgerInput where
  case := { case with accessScope := some scope }
  view := view t
  atCommit := view t
  businessPrerequisiteMet := true
  committedAt := t
  operation := operation

def recorded (eventId : String) (t : Instant) (result : CaseResult) : LedgerInput :=
  input { decisionEventId := eventId, businessObjectId := eventId } t (.record result none)

def position (t : Instant) : PositionReconciliationOutcome where
  disposition := .reconciled
  reasons := []
  snapshot := { snapshot [] with cutoffAt := t }
  conflicts := []

def budgeted (plan : CandidateAllocationOutcome) : CandidateAllocationOutcome :=
  { plan with riskBudget := some (SampleAuthorization.budget "B1" 0) }

/-- Services that find a plan as it was saved. -/
def services (plan : CandidateAllocationOutcome) : ConfirmationServices where
  savedAllocationInputsChanged := false
  candidateQualificationEligibility := fun _ _ => []
  reallocation := { budgeted plan with positionSnapshot := some (position 5).snapshot }
  savedBetaPermissionReasons := fun _ => []

/-- A plan that is saved and confirmed with choices on its securities. -/
def confirmed (plan : AllocatedPlan) (choices : List CandidateChoice) : List LedgerInput := [
  input { planFact.case with accessScope := none } 0 (.allocate plan),
  recorded "C" 1 { hasCandidateRelease := true },
  recorded "H" 2
    { portfolio := some
        { disposition := .approved
          reasons := []
          authorization := some
            { authorizationId := "H"
              proposal := SampleAuthorization.first.proposal
              confirmation := SampleAuthorization.first.confirmation } } },
  recorded "S0" 5 { position := some (position 5) },
  let case := (confirmationFact "E2" Literal.ten).case
  input { case with candidateConfirmation := case.candidateConfirmation.map fun command =>
      { command with choices := choices } } 10
    (.confirm (services plan.outcome) (services plan.outcome) fun _ => some [])]

/-- A row of the sample plan for another security and account. -/
def rowOf (securityId accountId : String) : CandidateAllocationRow where
  candidate := ⟨securityId, true, none, [0]⟩
  issuerId := "I"
  committedExposure := 0
  targetGap := 100
  continuousPrincipal := 100
  principal := 100
  outcome := .fullyAllocated
  reasons := []
  legs := [⟨{ route with securityId := securityId, accountId := accountId }, 10, 100, 1⟩]

/-- Two securities in two accounts whose names run together around the separator. -/
def ambiguous : AllocatedPlan where
  outcome := { budgeted plan with
    purchaseSequence := ["A:B", "A"]
    rows := [rowOf "A:B" "C", rowOf "A" "B:C"] }
  legKeys_nodup := by decide

end SampleConfirmation

open SampleExecution SampleConfirmation in
/-- The commitments of two securities in two accounts have one id. -/
theorem sample_commitmentIds_repeat :
    ∃ entry ∈ confirmationsOf "E1"
        (ledgerEvents decimals (confirmed ambiguous [⟨"A:B", .accept⟩, ⟨"A", .accept⟩])),
      entry.2.disposition = .confirmed ∧
        entry.2.reservations.map reservationKey = [("A:B", "C"), ("A", "B:C")] ∧
        ¬(entry.2.reservations.map (·.commitmentId)).Nodup := by
  decide +kernel

end StockProfiler.DecisionCases
