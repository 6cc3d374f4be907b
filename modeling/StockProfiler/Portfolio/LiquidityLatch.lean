import StockProfiler.Portfolio.Liquidity

/-!
# The cash remediation latch

Once a breach of the hard floor starts a remediation, every later assessment
carries it until one restores the cash target and a receipt or a broker sale
confirms the restoration.
-/

namespace StockProfiler.Portfolio

open PositionManagement

variable {progress prior : LiquidityOutcome} {remediationId : String} {ctx : DecimalContext}
  {steps : ℕ} {history : List LiquidityOutcome} {input : LiquidityInput}
  {outcome : LiquidityOutcome}

/-- One step of a run of liquidity assessments. -/
abbrev LiquidityStep := HistoryStep LiquidityInput LiquidityOutcome

/-- The reasons of an assessment whose accounts do not cover a carried remediation. -/
def scopeIncompleteReasons : List String := ["LIQUIDITY_HISTORY_SCOPE_INCOMPLETE"]

/-- The funding that an assessment on sound evidence rests on. -/
structure AssessedOn (ctx : DecimalContext) (steps : ℕ) (history : List LiquidityOutcome)
    (input : LiquidityInput) where
  figures : CashFigures
  outstanding : List DatedCashObligation
  coverage : List SettledObligationCoverage
  funding : FundingAssessment
  outstanding_eq : ∃ usage, input.authorization.usage = some usage ∧
    outstandingObligations ctx usage.unfinishedCashObligations input.command history =
      some (outstanding, coverage)
  funding_eq : assessFunding ctx steps input.position.snapshot input.command.saleTerms outstanding
    input.command.transferRoutes = some funding

/-- The ways in which an assessment can end, with what it takes over from the history. -/
inductive LiquidityCase (ctx : DecimalContext) (steps : ℕ) (history : List LiquidityOutcome)
    (input : LiquidityInput) : LiquidityOutcome → Prop where
  /-- The accounts do not cover the remediation. -/
  | scopeIncomplete : LiquidityCase ctx steps history input
      (evidenceFailure input {} [] scopeIncompleteReasons)
  /-- Some evidence failed. -/
  | failed (coverage : List SettledObligationCoverage) (reasons : List String) :
      LiquidityCase ctx steps history input (evidenceFailure input
        (carryOf (latestLiquidity history) (cashProgress history (latestLiquidity history)))
        coverage reasons)
  /-- Cash was assessed. -/
  | assessed (on : AssessedOn ctx steps history input) :
      LiquidityCase ctx steps history input (assessedLiquidity ctx history input
        (carryOf (latestLiquidity history) (cashProgress history (latestLiquidity history)))
        on.figures on.outstanding on.coverage on.funding)

/-- Every assessment is one of the cases of the latch. -/
theorem liquidityCase_of_assess (h : assessLiquidity ctx steps history input = some outcome) :
    LiquidityCase ctx steps history input outcome := by
  unfold assessLiquidity at h
  dsimp only at h
  split at h
  case isTrue =>
    cases h
    exact .scopeIncomplete
  case isFalse =>
    unfold assessInScope at h
    dsimp only at h
    split at h
    case h_1 =>
      cases h
      exact .failed _ _
    case h_2 usage husage =>
      split at h
      · cases h
        exact .failed _ _
      · split at h
        · cases h
          exact .failed _ _
        · rename_i outstanding coverage houtstanding
          split at h
          · cases h
            exact .failed _ _
          · split at h
            · obtain ⟨funding, hfunding, rfl⟩ := Option.map_eq_some_iff.mp h
              exact .assessed ⟨_, _, _, _, ⟨usage, husage, houtstanding⟩, hfunding⟩
            · cases h
              exact .failed _ _

/-- An outcome of a remediation in which cash was assessed. -/
def LiquidityOutcome.Assesses (outcome : LiquidityOutcome) (remediationId : String) : Prop :=
  outcome.remediationId = some remediationId ∧ outcome.qualifiedCash ≠ none

instance (outcome : LiquidityOutcome) (remediationId : String) :
    Decidable (outcome.Assesses remediationId) :=
  inferInstanceAs (Decidable (_ ∧ _))

/-- The last assessed outcome of a remediation, with the history before it. -/
def LastAssessed (history : List LiquidityOutcome) (remediationId : String)
    (earlier : List LiquidityOutcome) (progress : LiquidityOutcome) : Prop :=
  ∃ later, history = earlier ++ progress :: later ∧ progress.Assesses remediationId ∧
    ∀ x ∈ later, ¬x.Assesses remediationId

/-- The first outcome of a remediation. -/
def TriggersRemediation (history : List LiquidityOutcome) (remediationId : String)
    (trigger : LiquidityOutcome) : Prop :=
  ∃ earlier later, history = earlier ++ trigger :: later ∧
    trigger.remediationId = some remediationId ∧
    ∀ x ∈ earlier, x.remediationId ≠ some remediationId

/-- The restoration of cash that an outcome after a history rests on. -/
inductive RestorationConfirmed (remediationId : String) :
    List LiquidityOutcome → LiquidityOutcome → Prop where
  /-- A receipt that the last assessed outcome did not have. -/
  | receipt {history earlier : List LiquidityOutcome} {outcome progress : LiquidityOutcome}
      {receipt : SettledObligationCoverage}
      (hlast : LastAssessed history remediationId earlier progress)
      (hreceipt : receipt ∈ outcome.settledCoverage)
      (hnew : receipt.receiptId ∉ progress.settledCoverage.map (·.receiptId)) :
      RestorationConfirmed remediationId history outcome
  /-- More cash than the last assessed outcome had, and a broker sale for cash after the
  trigger that the trigger's ledger did not contain. -/
  | sale {history earlier : List LiquidityOutcome} {outcome progress trigger : LiquidityOutcome}
      {entry : AuthoritativeLedgerEntry} {qualified previous : ℚ}
      (hlast : LastAssessed history remediationId earlier progress)
      (hqualified : outcome.qualifiedCash = some qualified)
      (hprevious : progress.qualifiedCash = some previous) (hmore : previous < qualified)
      (htrigger : TriggersRemediation history remediationId trigger)
      (hentry : entry ∈ outcome.positionSnapshot.snapshot.authoritativeLedger)
      (hfill : entry.entryType = .fill) (hsold : entry.quantityDelta < 0)
      (hcash : 0 < entry.cashDelta) (hafter : trigger.cutoffAt < entry.occurredAt)
      (hnew : ∀ known ∈ trigger.positionSnapshot.snapshot.authoritativeLedger,
        (known.accountId, known.entryId) ≠ (entry.accountId, entry.entryId)) :
      RestorationConfirmed remediationId history outcome
  /-- A confirmation that the last assessed outcome already had. -/
  | earlier {history earlier : List LiquidityOutcome} {outcome progress : LiquidityOutcome}
      (hlast : LastAssessed history remediationId earlier progress)
      (hconfirmed : RestorationConfirmed remediationId earlier progress) :
      RestorationConfirmed remediationId history outcome

/-- The outcomes of a run have increasing cutoffs. -/
def InOrder (history : List LiquidityOutcome) : Prop :=
  history.Pairwise fun a b => a.cutoffAt ≤ b.cutoffAt

theorem filter_getLast?_split {α : Type*} {p : α → Bool} {items : List α} {item : α}
    (h : (items.filter p).getLast? = some item) :
    ∃ earlier later, items = earlier ++ item :: later ∧ p item = true ∧
      ∀ x ∈ later, p x = false := by
  induction items using List.reverseRecOn with
  | nil => exact nomatch h
  | append_singleton items last ih =>
    cases hp : p last with
    | true =>
      rw [List.filter_append, List.filter_cons_of_pos hp, List.filter_nil,
        List.getLast?_concat] at h
      cases h
      exact ⟨items, [], rfl, hp, by simp⟩
    | false =>
      rw [List.filter_append, List.filter_cons_of_neg (by simp [hp]), List.filter_nil,
        List.append_nil] at h
      obtain ⟨earlier, later, rfl, hitem, hlater⟩ := ih h
      refine ⟨earlier, later ++ [last], by simp, hitem, fun x hx => ?_⟩
      rcases List.mem_append.mp hx with hx | hx
      · exact hlater x hx
      · exact List.mem_singleton.mp hx ▸ hp

/-- In order, the last assessed outcome is the last one in the history. -/
theorem lastAssessed_of_lastCashAssessment (horder : InOrder history)
    (h : lastCashAssessment history remediationId = some progress) :
    ∃ earlier, LastAssessed history remediationId earlier progress := by
  rw [lastCashAssessment, lastMax_eq_getLast? (horder.filter _)] at h
  obtain ⟨earlier, later, hhistory, hprogress, hlater⟩ := filter_getLast?_split h
  refine ⟨earlier, later, hhistory, of_decide_eq_true hprogress, fun x hx => ?_⟩
  exact of_decide_eq_false (hlater x hx)

/-- The first outcome of a remediation is found first. -/
theorem triggersRemediation_of_find? {trigger : LiquidityOutcome}
    (h : history.find? (·.remediationId = some remediationId) = some trigger) :
    TriggersRemediation history remediationId trigger := by
  obtain ⟨htrigger, earlier, later, hhistory, hearlier⟩ := List.find?_eq_some_iff_append.mp h
  refine ⟨earlier, later, hhistory, of_decide_eq_true htrigger, fun x hx => ?_⟩
  simpa using hearlier x hx

/-- What the confirmation test accepts is a confirmation, given that the earlier ones are. -/
theorem confirmed_of_restorationConfirmed (horder : InOrder history) {qualified : ℚ}
    (hqualified : outcome.qualifiedCash = some qualified)
    (hearlier : ∀ earlier progress, LastAssessed history remediationId earlier progress →
      progress.restorationCashConfirmed = true →
      RestorationConfirmed remediationId earlier progress)
    (h : restorationConfirmed remediationId outcome.positionSnapshot qualified
      outcome.settledCoverage history = true) :
    RestorationConfirmed remediationId history outcome := by
  unfold restorationConfirmed at h
  split at h
  · exact nomatch h
  · rename_i progress hprogress
    obtain ⟨earlier, hlast⟩ := lastAssessed_of_lastCashAssessment horder hprogress
    split at h
    · exact nomatch h
    · rename_i previous hprevious
      split at h
      · rename_i hconfirmed
        exact .earlier hlast (hearlier earlier progress hlast hconfirmed)
      · split at h
        · rename_i hreceipt
          obtain ⟨receipt, hmem, hnew⟩ := List.any_eq_true.mp hreceipt
          exact .receipt hlast hmem (of_decide_eq_true hnew)
        · split at h
          · exact nomatch h
          · rename_i hmore
            obtain ⟨trigger, htrigger, hany⟩ := (Option.any_eq_true ..).mp h
            obtain ⟨entry, hentry, hconfirms⟩ := List.any_eq_true.mp hany
            obtain ⟨hfill, hsold, hcash, hafter, hnew⟩ := of_decide_eq_true hconfirms
            refine .sale hlast hqualified hprevious (not_le.mp hmore)
              (triggersRemediation_of_find? htrigger)
              hentry hfill hsold hcash hafter fun known hknown heq => hnew ?_
            exact List.contains_iff_mem.mpr (List.mem_map.mpr ⟨known, hknown, heq⟩)

/-- An outcome after which its remediation is no longer carried. -/
def LiquidityOutcome.Releasing (outcome : LiquidityOutcome) : Prop :=
  outcome.remediationId = none ∧ outcome.reasons ≠ scopeIncompleteReasons

/-- What an outcome that releases a remediation rests on. -/
structure ReleasesRemediation (ctx : DecimalContext) (steps : ℕ) (remediationId : String)
    (e : LiquidityStep) : Prop where
  /-- Qualified cash covers the normal target. -/
  covered : ∃ target qualified, e.outcome.normalCashTarget = some target ∧
    e.outcome.qualifiedCash = some qualified ∧ target ≤ qualified
  /-- The funding has no reasons. -/
  funded : ∃ on : AssessedOn ctx steps e.before e.input, on.funding.reasons = []
  not_failed : e.outcome.disposition ≠ .evidenceFailed
  /-- The restoration of cash is confirmed. -/
  confirmed : RestorationConfirmed remediationId e.before e.outcome

/-- A carried remediation blocks new exposure and leaves no cash to deploy. -/
structure BlocksPurchases (outcome : LiquidityOutcome) : Prop where
  deployable : outcome.deployablePurchaseCash = none ∨ outcome.deployablePurchaseCash = some 0
  blocked : outcome.newExposureBlocked = true

/-- No assessment that carries a remediation leaves cash to deploy. -/
theorem LiquidityCase.blocksPurchases (h : LiquidityCase ctx steps history input outcome)
    (hcarried : outcome.remediationId ≠ none) : BlocksPurchases outcome := by
  cases h with
  | scopeIncomplete => exact ⟨.inl rfl, rfl⟩
  | failed => exact ⟨.inl rfl, rfl⟩
  | assessed on =>
    simp only [assessedLiquidity, ne_eq, ite_eq_right_iff, Option.some_ne_none, imp_false,
      not_not] at hcarried
    refine ⟨.inr ?_, ?_⟩
    · simp only [assessedLiquidity]
      rw [if_pos (.inr (.inr hcarried))]
    · exact decide_eq_true (.inr (.inr (.inr (.inl hcarried))))

/-- A restoration shortfall of nothing means that the target is covered. -/
theorem covered_of_restorationShortfall {figures : CashFigures}
    (h : ¬0 < restorationShortfall ctx figures (some remediationId)) :
    figures.target ≤ figures.qualified := by
  by_contra hshort
  rw [restorationShortfall, if_pos (.inr (Option.some_ne_none _))] at h
  exact h (lt_max_of_lt_right (ctx.sub_pos_iff.mpr (not_le.mp hshort)))

theorem carried_getD {eventId : String} (h : remediationId ≠ "") :
    ((some remediationId).filter (· ≠ "")).getD eventId = remediationId := by
  rw [Option.filter_some, if_pos (decide_eq_true h), Option.getD_some]

/-- No assessed outcome has the reasons of one out of scope. -/
theorem text_ne_scopeIncomplete (disposition : LiquidityDisposition) :
    "LIQUIDITY_" ++ disposition.text ≠ "LIQUIDITY_HISTORY_SCOPE_INCOMPLETE" := by
  cases disposition <;> decide

/-- A carried remediation stays, except out of scope, until it is released. -/
theorem LiquidityCase.carries (h : LiquidityCase ctx steps history input outcome)
    (hprior : latestLiquidity history = some prior) (hid : prior.remediationId = some remediationId)
    (hne : remediationId ≠ "") (horder : InOrder history)
    (hearlier : ∀ earlier progress, LastAssessed history remediationId earlier progress →
      progress.restorationCashConfirmed = true →
      RestorationConfirmed remediationId earlier progress) :
    outcome.remediationId = some remediationId ∨
      outcome.retained = false ∧ outcome.reasons = scopeIncompleteReasons ∨
      outcome.Releasing ∧
        ReleasesRemediation ctx steps remediationId ⟨history, input, outcome⟩ := by
  have hcarry : (carryOf (latestLiquidity history)
      (cashProgress history (latestLiquidity history))).remediationId = some remediationId := by
    rw [hprior]
    exact hid
  cases h with
  | scopeIncomplete => exact .inr (.inl ⟨rfl, rfl⟩)
  | failed => exact .inl hcarry
  | assessed on =>
    generalize carryOf (latestLiquidity history)
      (cashProgress history (latestLiquidity history)) = carry at hcarry ⊢
    by_cases hactive : 0 < restorationShortfall ctx on.figures carry.remediationId ∨
        carry.remediationId ≠ none ∧ (on.funding.reasons ≠ [] ∨
          (carry.remediationId.any fun id =>
            restorationShortfall ctx on.figures carry.remediationId = 0 ∧
              restorationConfirmed id input.position on.figures.qualified on.coverage history) =
            false)
    · left
      simp only [assessedLiquidity]
      rw [if_pos hactive, hcarry, carried_getD hne]
    · right
      right
      have hnone : (assessedLiquidity ctx history input carry on.figures on.outstanding on.coverage
          on.funding).remediationId = none := if_neg hactive
      obtain ⟨hshort, hrest⟩ := not_or.mp hactive
      have hisSome : carry.remediationId ≠ none := hcarry ▸ Option.some_ne_none _
      obtain ⟨hfunded, hconfirmed⟩ := not_or.mp (not_and.mp hrest hisSome)
      have hreasons : on.funding.reasons = [] := not_not.mp hfunded
      rw [Bool.not_eq_false, hcarry, Option.any_some] at hconfirmed
      refine ⟨⟨hnone, fun h => ?_⟩, ?_, ⟨on, hreasons⟩, ?_, ?_⟩
      · exact text_ne_scopeIncomplete _ (List.cons.inj h).1
      · rw [hcarry] at hshort
        exact ⟨_, _, rfl, rfl, covered_of_restorationShortfall hshort⟩
      · simp only [assessedLiquidity, hreasons]
        split_ifs <;> simp_all
      · exact confirmed_of_restorationConfirmed horder rfl hearlier
          (of_decide_eq_true hconfirmed).2

/-- The run of a list of liquidity assessments. -/
def liquidityRun (ctx : DecimalContext) (steps : ℕ) (inputs : List LiquidityInput) :
    List LiquidityStep :=
  traceSome (assessLiquidity ctx steps) inputs

theorem LiquidityCase.positionSnapshot_eq (h : LiquidityCase ctx steps history input outcome) :
    outcome.positionSnapshot = input.position := by
  cases h <;> rfl

theorem inOrder_liquidityRun {inputs : List LiquidityInput} (hcutoffs : inputs.Pairwise fun a b =>
      a.position.snapshot.cutoffAt ≤ b.position.snapshot.cutoffAt) :
    InOrder (outcomes (liquidityRun ctx steps inputs)) := by
  have hrun := historyRun_traceSome (assessLiquidity ctx steps) inputs
  have hsteps := List.pairwise_map.mp
    (hcutoffs.sublist (inputs_traceSome_sublist (assessLiquidity ctx steps) inputs))
  refine List.pairwise_map.mpr (hsteps.imp_of_mem fun {a b} ha hb hle => ?_)
  have hcutoff : ∀ e ∈ liquidityRun ctx steps inputs,
      e.outcome.cutoffAt = e.input.position.snapshot.cutoffAt := fun e he => by
    have hcase := liquidityCase_of_assess (hrun.step_of_mem he)
    rw [LiquidityOutcome.cutoffAt, hcase.positionSnapshot_eq]
  rw [hcutoff a ha, hcutoff b hb]
  exact hle

theorem latestLiquidity_append_singleton {o : LiquidityOutcome}
    (horder : InOrder (history ++ [o])) :
    latestLiquidity (history ++ [o]) = if o.retained then some o else latestLiquidity history := by
  have hhistory : InOrder history := horder.sublist (List.sublist_append_left ..)
  rw [latestLiquidity, latestLiquidity, lastMax_eq_getLast? (horder.filter _),
    lastMax_eq_getLast? (hhistory.filter _), List.filter_append]
  by_cases h : o.retained = true
  · rw [if_pos h, List.filter_cons_of_pos h, List.filter_nil, List.getLast?_concat]
  · rw [if_neg h, List.filter_cons_of_neg h, List.filter_nil, List.append_nil]

/-- An outcome that carries a remediation is retained. -/
theorem retained_of_remediationId (h : outcome.remediationId = some remediationId) :
    outcome.retained = true :=
  decide_eq_true (.inr (h ▸ Option.some_ne_none _))

theorem mem_of_carried (h : (carryOf (latestLiquidity history)
      (cashProgress history (latestLiquidity history))).remediationId = some remediationId) :
    ∃ o ∈ history, o.remediationId = some remediationId := by
  obtain ⟨prior, hprior, hid⟩ := bind_eq_some.mp h
  exact ⟨prior, (List.mem_filter.mp (mem_of_lastMax hprior)).1, hid⟩

section Run

variable {run : List LiquidityStep}
  (hrun : HistoryRun (fun history input outcome =>
    assessLiquidity ctx steps history input = some outcome) run)
include hrun

theorem remediationId_ne_empty : ∀ e ∈ run, e.outcome.remediationId ≠ some "" := by
  refine hrun.forall_mem fun {run input outcome} _ ih hstep hempty => ?_
  have hcarried : ∀ id, (carryOf (latestLiquidity (outcomes run))
      (cashProgress (outcomes run) (latestLiquidity (outcomes run)))).remediationId = some id →
      id ≠ "" := by
    rintro id hid rfl
    obtain ⟨o, ho, hid⟩ := mem_of_carried hid
    obtain ⟨e, he, rfl⟩ := List.mem_map.mp ho
    exact ih e he hid
  cases liquidityCase_of_assess hstep with
  | scopeIncomplete => exact nomatch hempty
  | failed => exact hcarried "" hempty rfl
  | assessed on =>
    generalize carryOf (latestLiquidity (outcomes run))
      (cashProgress (outcomes run) (latestLiquidity (outcomes run))) = carry at hcarried hempty
    simp only [assessedLiquidity, Option.ite_none_right_eq_some, Option.some.injEq] at hempty
    obtain ⟨-, hempty⟩ := hempty
    cases hid : carry.remediationId with
    | none =>
      rw [hid] at hempty
      exact input.eventId_ne_empty hempty
    | some id =>
      rw [hid, carried_getD (hcarried id hid)] at hempty
      exact hcarried id hid hempty

/-- A confirmation of the last assessed outcome rests on a receipt or a sale, when those of the
run do. -/
theorem confirmed_of_lastAssessed (hconfirmed : ∀ e ∈ run, ∀ id, e.outcome.Assesses id →
      e.outcome.restorationCashConfirmed = true → RestorationConfirmed id e.before e.outcome)
    {earlier : List LiquidityOutcome}
    (h : LastAssessed (outcomes run) remediationId earlier progress)
    (hflag : progress.restorationCashConfirmed = true) :
    RestorationConfirmed remediationId earlier progress := by
  obtain ⟨later, hsplit, hassesses, -⟩ := h
  obtain ⟨before, rest, rfl, rfl, hrest⟩ := List.map_eq_append_iff.mp hsplit
  obtain ⟨e, after, rfl, rfl, -⟩ := List.map_eq_cons_iff.mp hrest
  have hmem : e ∈ before ++ e :: after := List.mem_append_right _ (List.mem_cons_self ..)
  have hbefore : e.before = outcomes before := hrun.before_eq rfl
  have hrests := hconfirmed e hmem remediationId hassesses hflag
  rw [hbefore] at hrests
  exact hrests

/-- The identity of a remediation that an assessed outcome continues is the carried one. -/
theorem carried_eq_of_assessed {on : AssessedOn ctx steps (outcomes run) input} {id : String}
    (hid : (assessedLiquidity ctx (outcomes run) input
      (carryOf (latestLiquidity (outcomes run))
        (cashProgress (outcomes run) (latestLiquidity (outcomes run))))
      on.figures on.outstanding on.coverage on.funding).remediationId = some remediationId)
    (hcarried : (carryOf (latestLiquidity (outcomes run))
      (cashProgress (outcomes run) (latestLiquidity (outcomes run)))).remediationId = some id) :
    id = remediationId := by
  obtain ⟨o, ho, ho'⟩ := mem_of_carried hcarried
  obtain ⟨e, he, rfl⟩ := List.mem_map.mp ho
  have hne : id ≠ "" := fun hempty => remediationId_ne_empty hrun e he (hempty ▸ ho')
  simp only [assessedLiquidity, Option.ite_none_right_eq_some, Option.some.injEq] at hid
  rw [hcarried, carried_getD hne] at hid
  exact hid.2

end Run

/-- A confirmed restoration of a run rests on a receipt or a sale. -/
theorem confirmed_of_assesses {run : List LiquidityStep}
    (hrun : HistoryRun (fun history input outcome =>
      assessLiquidity ctx steps history input = some outcome) run)
    (horder : InOrder (outcomes run)) :
    ∀ e ∈ run, ∀ remediationId, e.outcome.Assesses remediationId →
      e.outcome.restorationCashConfirmed = true →
      RestorationConfirmed remediationId e.before e.outcome := by
  induction hrun with
  | nil => exact fun e he => nomatch he
  | @snoc run input outcome hrun hstep ih =>
    rw [outcomes_append] at horder
    have hbefore : InOrder (outcomes run) := horder.sublist (List.sublist_append_left ..)
    intro e he remediationId hassesses hflag
    rcases List.mem_append.mp he with he | he
    · exact ih hbefore e he remediationId hassesses hflag
    · obtain rfl := List.mem_singleton.mp he
      obtain ⟨hid, hcash⟩ := hassesses
      cases liquidityCase_of_assess hstep with
      | scopeIncomplete => exact absurd rfl hcash
      | failed => exact absurd rfl hcash
      | assessed on =>
        obtain ⟨id, hcarried, hconfirmed⟩ := (Option.any_eq_true ..).mp hflag
        obtain rfl := carried_eq_of_assessed hrun hid hcarried
        exact confirmed_of_restorationConfirmed hbefore rfl
          (fun _ _ hlast => confirmed_of_lastAssessed hrun (ih hbefore) hlast)
          (of_decide_eq_true hconfirmed).2

section Latch

variable {run : List LiquidityStep}
  (hrun : HistoryRun (fun history input outcome =>
    assessLiquidity ctx steps history input = some outcome) run)
  (horder : InOrder (outcomes run))
include hrun horder

/-- What a step does after a history that carries a remediation. -/
theorem carries_of_latest {earlier later : List LiquidityStep} {e : LiquidityStep}
    (hsplit : run = earlier ++ e :: later)
    (hprior : latestLiquidity (outcomes earlier) = some prior)
    (hid : prior.remediationId = some remediationId) :
    e.outcome.remediationId = some remediationId ∨
      e.outcome.retained = false ∧ e.outcome.reasons = scopeIncompleteReasons ∨
      e.outcome.Releasing ∧ ReleasesRemediation ctx steps remediationId e := by
  subst hsplit
  have hstep := hrun.step_of_mem (List.mem_append_right earlier (List.mem_cons_self (a := e)))
  have hbefore : e.before = outcomes earlier := hrun.before_eq rfl
  have hearlier : HistoryRun _ earlier := hrun.of_append
  have hinOrder : InOrder (outcomes earlier) := by
    rw [outcomes_append] at horder
    exact horder.sublist (List.sublist_append_left ..)
  obtain ⟨o, ho, rfl⟩ := List.mem_map.mp (List.mem_filter.mp (mem_of_lastMax hprior)).1
  have hne : remediationId ≠ "" := fun hempty =>
    remediationId_ne_empty hearlier o ho (hempty ▸ hid)
  rw [hbefore] at hstep
  have hcarries := (liquidityCase_of_assess hstep).carries hprior hid hne hinOrder
    fun _ _ hlast => confirmed_of_lastAssessed hearlier
      (confirmed_of_assesses hearlier hinOrder) hlast
  rw [← hbefore] at hcarries
  exact hcarries

/-- While nothing releases it, the latest outcome carries the remediation. -/
theorem latestLiquidity_carries {earlier between later : List LiquidityStep} {e : LiquidityStep}
    (hsplit : run = earlier ++ e :: between ++ later)
    (hid : e.outcome.remediationId = some remediationId)
    (hbetween : ∀ x ∈ between, ¬x.outcome.Releasing) :
    ∃ prior, latestLiquidity (outcomes (earlier ++ e :: between)) = some prior ∧
      prior.remediationId = some remediationId := by
  have horderPrefix : InOrder (outcomes (earlier ++ e :: between)) := by
    rw [hsplit, outcomes_append] at horder
    exact horder.sublist (List.sublist_append_left ..)
  induction between using List.reverseRecOn generalizing later with
  | nil =>
    rw [outcomes_append, outcomes_singleton] at horderPrefix ⊢
    rw [latestLiquidity_append_singleton horderPrefix, if_pos (retained_of_remediationId hid)]
    exact ⟨e.outcome, rfl, hid⟩
  | append_singleton between x ih =>
    have hsplit' : run = earlier ++ e :: between ++ x :: later := by simp [hsplit]
    rw [← List.cons_append, ← List.append_assoc, outcomes_append, outcomes_singleton]
      at horderPrefix ⊢
    obtain ⟨prior, hprior, hcarried⟩ := ih hsplit'
      (fun y hy => hbetween y (List.mem_append_left _ hy))
      (horderPrefix.sublist (List.sublist_append_left ..))
    rw [latestLiquidity_append_singleton horderPrefix]
    rcases carries_of_latest hrun horder hsplit' hprior hcarried with hx | ⟨hx, -⟩ | ⟨hx, -⟩
    · rw [if_pos (retained_of_remediationId hx)]
      exact ⟨x.outcome, rfl, hx⟩
    · rw [hx, if_neg Bool.false_ne_true]
      exact ⟨prior, hprior, hcarried⟩
    · exact absurd hx (hbetween x (List.mem_append_right _ (List.mem_singleton_self x)))

end Latch

/-- What a run guarantees of its remediations. -/
structure RemediationLatch (ctx : DecimalContext) (steps : ℕ) (run : List LiquidityStep) :
    Prop where
  /-- Up to a first releasing outcome every outcome carries the remediation, or is out of scope;
  a releasing outcome has restored and confirmed cash. -/
  carried : ∀ earlier e between e' later remediationId,
    run = earlier ++ e :: between ++ e' :: later →
    e.outcome.remediationId = some remediationId → (∀ x ∈ between, ¬x.outcome.Releasing) →
    e'.outcome.remediationId = some remediationId ∨
      e'.outcome.reasons = scopeIncompleteReasons ∨
      ReleasesRemediation ctx steps remediationId e'
  /-- A carried remediation blocks new exposure and leaves no cash to deploy. -/
  blocks : ∀ e ∈ run, e.outcome.remediationId ≠ none → BlocksPurchases e.outcome

/-- Assessments with cutoffs in order carry a remediation until cash is restored. -/
theorem liquidityRun_remediationLatch (ctx : DecimalContext) (steps : ℕ)
    (inputs : List LiquidityInput) (hcutoffs : inputs.Pairwise fun a b =>
      a.position.snapshot.cutoffAt ≤ b.position.snapshot.cutoffAt) :
    RemediationLatch ctx steps (liquidityRun ctx steps inputs) := by
  have hrun := historyRun_traceSome (assessLiquidity ctx steps) inputs
  have horder : InOrder (outcomes (liquidityRun ctx steps inputs)) :=
    inOrder_liquidityRun hcutoffs
  constructor
  case carried =>
    intro earlier e between e' later remediationId hsplit hid hbetween
    obtain ⟨prior, hprior, hcarried⟩ := latestLiquidity_carries hrun horder hsplit hid hbetween
    rcases carries_of_latest hrun horder hsplit hprior hcarried with h | ⟨-, h⟩ | ⟨-, h⟩
    · exact .inl h
    · exact .inr (.inl h)
    · exact .inr (.inr h)
  case blocks =>
    intro e he hid
    exact (liquidityCase_of_assess (hrun.step_of_mem he)).blocksPurchases hid

namespace SampleRemediation

open SampleBroker (evidence fill snapshot)

def cash (cutoffAt : Instant) (trading : ℚ) : AccountCashState :=
  SampleBroker.cash (evidence cutoffAt) 1000 trading

def saleEntry (occurredAt : Instant) (proceeds : ℚ) : AuthoritativeLedgerEntry :=
  fill "sale" (-1) 0 proceeds occurredAt

def position (cutoffAt : Instant) (trading : ℚ) (ledger : List AuthoritativeLedgerEntry) :
    PositionReconciliationOutcome where
  disposition := .reconciled
  reasons := []
  conflicts := []
  snapshot := snapshot (evidence cutoffAt) cutoffAt 1000 [cash cutoffAt trading] ledger

/-- A budget with a cash target of a fifth and a floor of a tenth. -/
def proposal : PortfolioProposal where
  portfolioId := "P"
  snapshot := SampleProposals.snapshot "sample" 0
  riskBudget := SampleProposals.budget "B" "P" 0
  effectiveAt_eq := rfl
  cashObligations := []
  obligationIds_nodup := List.nodup_nil
  target_mem := nofun

def authorization : PortfolioAuthorizationOutcome where
  disposition := .approved
  reasons := []
  usage := some ⟨true, ⟨"K", proposal, { confirmationId := "C", confirmedAt := 0 }, none⟩, [], 0⟩

def assessmentAt (eventId : String) (hevent : eventId ≠ "") (cutoffAt : Instant) (trading : ℚ)
    (ledger : List AuthoritativeLedgerEntry) : LiquidityInput where
  command :=
    { portfolioId := "P"
      authorizationId := "K"
      positionSnapshot :=
        { snapshotId := "sample"
          cutoffAt := cutoffAt
          snapshotEvidence := evidence cutoffAt
          valuationCurrency := "CNY"
          accounts :=
            [{ accountId := "A"
               accountType := "CASH"
               currency := "CNY"
               snapshotEvidence := evidence cutoffAt
               accountEquity := some 1000
               accountEquityEvidence := evidence cutoffAt
               cashState :=
                { cash cutoffAt trading with evidence := evidence cutoffAt }
               positions := []
               openOrders := []
               ledgerEntries := []
               executionRestrictions := [] }]
          accounts_ne_nil := List.cons_ne_nil _ _
          accountIds_nodup := List.nodup_singleton _
          currency_eq := by simp
          annotation_mem := fun _ h => absurd h List.not_mem_nil }
      expectedPurchaseFees := 0
      expectedLiquidationFees := 0
      saleTerms := []
      transferRoutes := []
      settledCoverage := []
      costEvidence := some (evidence cutoffAt)
      expectedPurchaseFees_nonneg := Literal.zero.nonneg
      expectedLiquidationFees_nonneg := Literal.zero.nonneg }
  authorization := authorization
  position := position cutoffAt trading ledger
  purchaseAuthorization := authorization
  eventId := eventId
  eventId_ne_empty := hevent

def inputs : List LiquidityInput :=
  [assessmentAt "1" (by decide) 10 50 [], assessmentAt "2" (by decide) 20 300 [],
    assessmentAt "3" (by decide) 30 400 [saleEntry 25 100]]

def remediations : List (Option String) :=
  (liquidityRun .exact 1 inputs).map (·.outcome.remediationId)

end SampleRemediation

/-- Cash that no sale explains does not release the remediation, and a sale does. -/
theorem sample_remediationLatch :
    SampleRemediation.remediations = [some "1", some "1", none] ∧
      RemediationLatch .exact 1 (liquidityRun .exact 1 SampleRemediation.inputs) :=
  ⟨by decide +kernel, liquidityRun_remediationLatch .exact 1 SampleRemediation.inputs (by decide)⟩

end StockProfiler.Portfolio
