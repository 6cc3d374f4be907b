import StockProfiler.Portfolio.DrawdownSessions

/-!
# Unknown evidence and the capital accounting

An unknown outcome resets the counts of sessions and keeps the capital accounting
of the latest state. Whatever is unknown in between, a later observation is
accounted for as it is without.
-/

namespace StockProfiler.Portfolio

open PositionManagement

variable {reading : DrawdownReading} {state : DrawdownState} {basis : DrawdownBasis}

/-- What later observations of an epoch are accounted against. -/
structure CapitalAccounting where
  epochId : String
  portfolioId : String
  authorizationId : String
  accountIds : List String
  accountingCutoffAt : Instant
  policy : DrawdownPolicy
  maximumDrawdown : ℚ
  exactUnits : ExactRatio
  exactPeak : ExactRatio
  processedTransfers : List FlowLedgerKey
  processedStockEvents : List FlowLedgerKey
  processedFlowIds : List String
  epochStatus : EpochStatus
  closedAt : Option Instant
  previousEpochId : Option String
  reauthorization : Option CapitalReauthorization

/-- The accounting that a state carries. -/
def DrawdownState.accounting (state : DrawdownState) : CapitalAccounting where
  epochId := state.epochId
  portfolioId := state.portfolioId
  authorizationId := state.authorizationId
  accountIds := state.accountIds
  accountingCutoffAt := state.accountingCutoffAt
  policy := state.policy
  maximumDrawdown := state.maximumDrawdown
  exactUnits := state.exactUnits
  exactPeak := state.exactPeak
  processedTransfers := state.processedTransfers
  processedStockEvents := state.processedStockEvents
  processedFlowIds := state.processedFlowIds
  epochStatus := state.epochStatus
  closedAt := state.closedAt
  previousEpochId := state.previousEpochId
  reauthorization := state.reauthorization

@[simp] theorem accounting_retained (prior : DrawdownState) (command : DrawdownCommand)
    (eventId : String) : (prior.retained command eventId).accounting = prior.accounting := rfl

/-- Two outcomes end alike and carry the same accounting. -/
structure SameAccounting (o o' : DrawdownOutcome) : Prop where
  disposition : o.disposition = o'.disposition
  reasons : o.reasons = o'.reasons
  accounting : o.state.map (·.accounting) = o'.state.map (·.accounting)

theorem SameAccounting.refl (o : DrawdownOutcome) : SameAccounting o o := ⟨rfl, rfl, rfl⟩

theorem SameAccounting.symm {o o' : DrawdownOutcome} (h : SameAccounting o o') :
    SameAccounting o' o := ⟨h.disposition.symm, h.reasons.symm, h.accounting.symm⟩

/-- The same command, naming another decision that it continues. -/
def DrawdownInput.linked (input : DrawdownInput) (previousDecisionId : Option String) :
    DrawdownInput :=
  { input with command := { input.command with previousDecisionId := previousDecisionId } }

/-- The same command, continuing the latest decision of a history. -/
def DrawdownInput.following (history : List DrawdownOutcome) (input : DrawdownInput) :
    DrawdownInput :=
  input.linked ((priorState history).map (·.decisionId))

section Refusals

variable {ctx : DecimalContext} {history : List DrawdownOutcome} {input : DrawdownInput}

/-- The command continues the latest decision, at a later cutoff. -/
structure FollowsLatest (history : List DrawdownOutcome) (input : DrawdownInput) : Prop where
  linked : input.command.previousDecisionId = (priorState history).map (·.decisionId)
  later : ∀ prior, priorState history = some prior → prior.cutoffAt < input.command.cutoffAt

/-- A command that follows a history is its own continuation. -/
theorem FollowsLatest.following_eq (h : FollowsLatest history input) :
    input.following history = input := by
  unfold DrawdownInput.following
  rw [← h.linked]
  rfl

/-- A command that passes the guards on revisions follows the history. -/
theorem follows_of_guards (hopens : ¬(input.command.operation = .open ∧
      ((priorState history).isSome ∨ input.command.previousDecisionId.isSome)))
    (hcontinues : ¬(input.command.operation ≠ .open ∧
      input.revisionConflict (priorState history) = true)) : FollowsLatest history input := by
  cases hprior : priorState history with
  | none =>
    rw [hprior] at hopens hcontinues
    have hopen : input.command.operation = .open := by
      by_contra hop
      exact hcontinues ⟨hop, rfl⟩
    have hlinked : ¬input.command.previousDecisionId.isSome := fun hsome =>
      hopens ⟨hopen, Or.inr hsome⟩
    constructor
    · rw [hprior]
      exact Option.not_isSome_iff_eq_none.mp hlinked
    · intro prior h
      exact nomatch h.symm.trans hprior
  | some state =>
    rw [hprior] at hopens hcontinues
    have hopen : input.command.operation ≠ .open := fun hop => hopens ⟨hop, Or.inl rfl⟩
    have hrevision : input.revisionConflict (some state) = false := by
      rw [← Bool.not_eq_true]
      exact fun hconflict => hcontinues ⟨hopen, hconflict⟩
    simp only [DrawdownInput.revisionConflict, decide_eq_false_iff_not, not_or, not_not,
      not_le] at hrevision
    constructor
    · rw [hprior]
      exact hrevision.1
    · intro prior h
      obtain rfl := Option.some.inj (hprior.symm.trans h)
      exact hrevision.2.2.2.2.1

/-- How a command is refused: without a state, with unknown evidence, or as a new epoch on
stock that moved while the old one cooled. -/
inductive Refusal (history : List DrawdownOutcome) (input : DrawdownInput) :
    DrawdownOutcome → Prop where
  | denied (reason : String) : Refusal history input (.denied reason)
  | unknown (reason : String) (hfollows : FollowsLatest history input) : Refusal history input
      (unknownEvidence (priorState history) input.command input.eventId reason)
  | cooling (reason : String) (hfollows : FollowsLatest history input)
      (hop : input.command.operation = .reauthorize) : Refusal history input
        { unknownEvidence (priorState history) input.command input.eventId reason with
          disposition := .denied }

/-- What the guards decide: a refusal, or that the command follows the history. -/
def Decides (history : List DrawdownOutcome) (input : DrawdownInput) :
    Except DrawdownOutcome DrawdownBasis → Prop
  | .error outcome => Refusal history input outcome
  | .ok _ => FollowsLatest history input

theorem decides_drawdownBasis (ctx : DecimalContext) (history : List DrawdownOutcome)
    (input : DrawdownInput) : Decides history input (drawdownBasis ctx history input) := by
  unfold drawdownBasis
  cases input.namedCapital with
  | none => exact .denied _
  | some named =>
    refine iteInduction (fun _ => .denied _) fun _ => ?_
    refine iteInduction (fun _ => .denied _) fun _ => ?_
    refine iteInduction (fun _ => .denied _) fun hopens => ?_
    refine iteInduction (fun _ => .denied _) fun hcontinues => ?_
    have hfollows : FollowsLatest history input := follows_of_guards hopens hcontinues
    refine iteInduction (fun _ => .denied _) fun _ => ?_
    refine iteInduction (fun _ => .denied _) fun _ => ?_
    cases input.completeEvidence (priorState history)
      (input.effectiveCapital (priorState history) named) with
    | none => exact .unknown _ hfollows
    | some evidence =>
      refine iteInduction (fun _ => .denied _) fun _ => ?_
      refine iteInduction (fun _ => .denied _) fun _ => ?_
      exact iteInduction (fun hcooling => .cooling _ hfollows hcooling.1) fun _ => hfollows

/-- An adjudication refuses the command, or observes a new state that follows the history. -/
theorem refusal_or_observed (ctx : DecimalContext) (history : List DrawdownOutcome)
    (input : DrawdownInput) : Refusal history input (adjudicate ctx history input) ∨
      FollowsLatest history input ∧ ∃ basis reading, Observed ctx history input basis reading := by
  have hdecides := decides_drawdownBasis ctx history input
  rcases adjudicate_cases ctx history input with ⟨hnone, -⟩ | ⟨basis, reading, hobserved⟩
  · left
    have hguarded := guarded_drawdownBasis ctx history input
    unfold observation at hnone
    unfold adjudicate
    cases hbasis : drawdownBasis ctx history input with
    | error outcome =>
      rw [hbasis] at hdecides
      exact hdecides
    | ok basis =>
      rw [hbasis] at hguarded hnone hdecides
      cases hreading : drawdownReading input basis with
      | ok reading =>
        simp only [hreading, Except.toOption, Option.map_some] at hnone
        cases hnone
      | error reason =>
        have hprior := hguarded.prior
        split at hprior
        · rw [drawdownReading, hprior] at hreading
          cases hreading
        · dsimp only
          rw [hreading, hprior]
          exact .unknown reason hdecides
  · right
    refine ⟨?_, basis, reading, hobserved⟩
    have hobservation := hobserved.observed
    unfold observation at hobservation
    cases hbasis : drawdownBasis ctx history input with
    | error outcome =>
      rw [hbasis] at hobservation
      cases hobservation
    | ok other =>
      rw [hbasis] at hdecides
      exact hdecides

/-- An unknown outcome follows the latest state, and retains it. -/
theorem retained_of_unknown (h : (adjudicate ctx history input).disposition = .unknown) :
    FollowsLatest history input ∧ (adjudicate ctx history input).state =
      (priorState history).map (·.retained input.command input.eventId) := by
  rcases refusal_or_observed ctx history input with
    hrefusal | ⟨-, basis, reading, hobserved⟩
  · generalize adjudicate ctx history input = outcome at h hrefusal
    cases hrefusal with
    | denied reason => exact nomatch h
    | unknown reason hfollows => exact ⟨hfollows, rfl⟩
    | cooling reason hfollows hop => exact nomatch h
  · rw [hobserved.disposition] at h
    split at h
    · exact nomatch h
    · exact nomatch h

/-- A state is left by a command that follows the history, at its cutoff. -/
theorem follows_of_state (h : (adjudicate ctx history input).state = some state) :
    FollowsLatest history input ∧ state.cutoffAt = input.command.cutoffAt := by
  rcases refusal_or_observed ctx history input with
    hrefusal | ⟨hfollows, basis, reading, hobserved⟩
  · generalize adjudicate ctx history input = outcome at h hrefusal
    cases hrefusal with
    | denied reason => exact nomatch h
    | unknown reason hfollows =>
      obtain ⟨prior, -, rfl⟩ := Option.map_eq_some_iff.mp h
      exact ⟨hfollows, rfl⟩
    | cooling reason hfollows hop =>
      obtain ⟨prior, -, rfl⟩ := Option.map_eq_some_iff.mp h
      exact ⟨hfollows, rfl⟩
  · obtain rfl := Option.some.inj (hobserved.state.symm.trans h)
    exact ⟨hfollows, rfl⟩

end Refusals

section Agreement

variable {basis' : DrawdownBasis} {ctx : DecimalContext} {input : DrawdownInput}
  {s t : DrawdownState}

theorem adjustedUnits_congr (h : s.accounting = t.accounting)
    (position : PositionReconciliationOutcome) :
    adjustedUnits input s position = adjustedUnits input t position := by
  have hunits : s.exactUnits = t.exactUnits := congrArg CapitalAccounting.exactUnits h
  have hpeak : s.exactPeak = t.exactPeak := congrArg CapitalAccounting.exactPeak h
  have htransfers : s.processedTransfers = t.processedTransfers :=
    congrArg CapitalAccounting.processedTransfers h
  have hids : s.processedFlowIds = t.processedFlowIds :=
    congrArg CapitalAccounting.processedFlowIds h
  have hcutoff : s.accountingCutoffAt = t.accountingCutoffAt :=
    congrArg CapitalAccounting.accountingCutoffAt h
  have haccounts : s.accountIds = t.accountIds := congrArg CapitalAccounting.accountIds h
  have hflow : processFlow input s position = processFlow input t position := by
    funext progress flow
    simp only [processFlow, hcutoff, haccounts]
  simp only [adjustedUnits, hunits, hpeak, htransfers, hids, hflow]

variable {prior prior' : Option DrawdownState}

theorem accounting_cases (h : prior.map (·.accounting) = prior'.map (·.accounting)) :
    prior = none ∧ prior' = none ∨
      ∃ s t, prior = some s ∧ prior' = some t ∧ s.accounting = t.accounting := by
  cases prior with
  | none => exact .inl ⟨rfl, Option.map_eq_none_iff.mp h.symm⟩
  | some s =>
    obtain ⟨t, ht, hst⟩ := Option.map_eq_some_iff.mp h.symm
    exact .inr ⟨s, t, rfl, ht, hst.symm⟩

/-- What is read of the accounting of an optional state is one where the accounting is. -/
theorem accounting_congr {α : Type*} (f : Option DrawdownState → α) (g : CapitalAccounting → α)
    (h : prior.map (·.accounting) = prior'.map (·.accounting))
    (hf : ∀ s, f (some s) = g s.accounting) : f prior = f prior' := by
  rcases accounting_cases h with ⟨rfl, rfl⟩ | ⟨s, t, rfl, rfl, hst⟩
  · rfl
  · rw [hf, hf, hst]

theorem newStockEvents_congr (h : prior.map (·.accounting) = prior'.map (·.accounting))
    (position : PositionReconciliationOutcome) :
    newStockEvents prior position = newStockEvents prior' position := by
  rcases accounting_cases h with ⟨rfl, rfl⟩ | ⟨s, t, rfl, rfl, hst⟩
  · rfl
  · have hevents : s.processedStockEvents = t.processedStockEvents :=
      congrArg CapitalAccounting.processedStockEvents hst
    simp only [newStockEvents, hevents]

/-- Two adjudications rest on the same facts and continue the same accounting. -/
structure SameBasis (basis basis' : DrawdownBasis) : Prop where
  capital : basis.capital = basis'.capital
  prior : basis.prior.map (·.accounting) = basis'.prior.map (·.accounting)
  predecessor : basis.predecessorEpochId = basis'.predecessorEpochId
  position : basis.position = basis'.position
  equity : basis.equity = basis'.equity
  closure : basis.closureDenied = basis'.closureDenied

/-- Two guard results that agree up to what they retain. -/
inductive SameGuards : Except DrawdownOutcome DrawdownBasis →
    Except DrawdownOutcome DrawdownBasis → Prop where
  | refused {o o' : DrawdownOutcome} (h : SameAccounting o o') :
      SameGuards (.error o) (.error o')
  | passed {basis basis' : DrawdownBasis} (h : SameBasis basis basis') :
      SameGuards (.ok basis) (.ok basis')

theorem SameGuards.ite {p p' : Prop} [Decidable p] [Decidable p']
    {x x' y y' : Except DrawdownOutcome DrawdownBasis} (hp : p ↔ p') (hx : p → SameGuards x x')
    (hy : ¬p → SameGuards y y') : SameGuards (if p then x else y) (if p' then x' else y') := by
  by_cases h : p
  · rw [if_pos h, if_pos (hp.mp h)]
    exact hx h
  · rw [if_neg h, if_neg (mt hp.mpr h)]
    exact hy h

theorem SameGuards.denied (reason : String) :
    SameGuards (.error (.denied reason)) (.error (.denied reason)) := .refused (.refl _)

theorem sameAccounting_unknownEvidence (h : prior.map (·.accounting) = prior'.map (·.accounting))
    (command command' : DrawdownCommand) (eventId reason : String) :
    SameAccounting (unknownEvidence prior command eventId reason)
      (unknownEvidence prior' command' eventId reason) := by
  refine ⟨rfl, rfl, ?_⟩
  simp only [unknownEvidence, Option.map_map, Function.comp_def, accounting_retained]
  exact h

/-- A command that opens a new epoch is confirmed on both histories or on neither. -/
def ConfirmedAlike (plain padded : List DrawdownOutcome) (input : DrawdownInput) : Prop :=
  input.command.operation = .reauthorize → ∀ named, input.namedCapital = some named →
    (input.following plain).reauthorizationRejected plain (priorState plain)
        ((input.following plain).effectiveCapital (priorState plain) named) =
      (input.following padded).reauthorizationRejected padded (priorState padded)
        ((input.following padded).effectiveCapital (priorState padded) named)

section Histories

variable {plain padded : List DrawdownOutcome}
  (hprior : (priorState plain).map (·.accounting) = (priorState padded).map (·.accounting))
include hprior

theorem effectiveCapital_congr (named : PortfolioAuthorization) :
    (input.following plain).effectiveCapital (priorState plain) named =
      (input.following padded).effectiveCapital (priorState padded) named := by
  rcases accounting_cases hprior with ⟨hplain, hpadded⟩ | ⟨s, t, hplain, hpadded, hst⟩
  · rw [hplain, hpadded]
    rfl
  · have hstatus : s.epochStatus = t.epochStatus := congrArg CapitalAccounting.epochStatus hst
    rw [hplain, hpadded]
    simp only [DrawdownInput.effectiveCapital, Option.all_some, hstatus]
    rfl

theorem completeEvidence_congr (capital : PortfolioAuthorization) :
    (input.following plain).completeEvidence (priorState plain) capital =
      (input.following padded).completeEvidence (priorState padded) capital := by
  have hcurrencies : (input.following plain).accountingCurrencies (priorState plain) capital =
      (input.following padded).accountingCurrencies (priorState padded) capital := by
    have hids : ((priorState plain).map (·.authorizationId)).toList =
        ((priorState padded).map (·.authorizationId)).toList :=
      accounting_congr (fun prior => (prior.map (·.authorizationId)).toList)
        (fun account => [account.authorizationId]) hprior fun _ => rfl
    simp only [DrawdownInput.accountingCurrencies, hids]
    rfl
  simp only [DrawdownInput.completeEvidence, hcurrencies]
  rfl

theorem revisionConflict_congr
    (hplain : ∀ s, priorState plain = some s → s.cutoffAt < input.command.cutoffAt)
    (hpadded : ∀ t, priorState padded = some t → t.cutoffAt < input.command.cutoffAt) :
    (input.following plain).revisionConflict (priorState plain) =
      (input.following padded).revisionConflict (priorState padded) := by
  rcases accounting_cases hprior with ⟨hnone, hnone'⟩ | ⟨s, t, hs, ht, hst⟩
  · rw [hnone, hnone']
    rfl
  · have hepoch : s.epochId = t.epochId := congrArg CapitalAccounting.epochId hst
    have hportfolio : s.portfolioId = t.portfolioId := congrArg CapitalAccounting.portfolioId hst
    have haccounts : s.accountIds = t.accountIds := congrArg CapitalAccounting.accountIds hst
    have hpolicy : s.policy = t.policy := congrArg CapitalAccounting.policy hst
    have hs' := hplain s hs
    have ht' := hpadded t ht
    simp only [DrawdownInput.following, DrawdownInput.linked, DrawdownInput.revisionConflict,
      hs, ht, Option.map_some, ne_eq, not_true_eq_false, false_or, hepoch, hportfolio, haccounts,
      hpolicy, not_le.mpr hs', not_le.mpr ht']

/-- The guards decide alike on two histories with the same accounting. -/
theorem sameGuards_drawdownBasis (hconfirmed : ConfirmedAlike plain padded input)
    (hplain : ∀ s, priorState plain = some s → s.cutoffAt < input.command.cutoffAt)
    (hpadded : ∀ t, priorState padded = some t → t.cutoffAt < input.command.cutoffAt) :
    SameGuards (drawdownBasis ctx plain (input.following plain))
      (drawdownBasis ctx padded (input.following padded)) := by
  have hsome : (priorState plain).isSome = (priorState padded).isSome := by
    have h := congrArg Option.isSome hprior
    simpa only [Option.isSome_map] using h
  have hlinked : (input.following plain).command.previousDecisionId.isSome =
      (input.following padded).command.previousDecisionId.isSome := by
    simpa only [DrawdownInput.following, DrawdownInput.linked, Option.isSome_map] using hsome
  have hepoch : (priorState plain).map (fun s => s.epochId) =
      (priorState padded).map fun t => t.epochId :=
    accounting_congr (·.map (·.epochId)) (some ·.epochId) hprior fun _ => rfl
  have hpredecessor : ((priorState plain).bind fun s => s.previousEpochId) =
      (priorState padded).bind fun t => t.previousEpochId :=
    accounting_congr (·.bind (·.previousEpochId)) (·.previousEpochId) hprior fun _ => rfl
  have hclosed : (priorState plain).any (fun s => s.epochStatus = .closed) =
      (priorState padded).any fun t => t.epochStatus = .closed :=
    accounting_congr (·.any (·.epochStatus = .closed)) (·.epochStatus = .closed) hprior fun _ => rfl
  unfold drawdownBasis
  have hnamed : (input.following plain).namedCapital = (input.following padded).namedCapital := rfl
  rw [hnamed]
  cases hcapital : (input.following padded).namedCapital with
  | none => exact .denied _
  | some named =>
    have hrejected := fun hop => hconfirmed hop named hcapital
    rw [effectiveCapital_congr hprior] at hrejected
    dsimp only
    rw [effectiveCapital_congr hprior, revisionConflict_congr hprior hplain hpadded,
      completeEvidence_congr hprior]
    refine SameGuards.ite Iff.rfl (fun _ => .denied _) fun _ => ?_
    refine SameGuards.ite Iff.rfl (fun _ => .denied _) fun _ => ?_
    refine SameGuards.ite (by rw [hsome, hlinked]; rfl) (fun _ => .denied _) fun _ => ?_
    refine SameGuards.ite Iff.rfl (fun _ => .denied _) fun _ => ?_
    refine SameGuards.ite (and_congr_right fun hop => by rw [hrejected hop])
      (fun _ => .denied _) fun _ => ?_
    refine SameGuards.ite Iff.rfl (fun _ => .denied _) fun _ => ?_
    cases (input.following padded).completeEvidence (priorState padded)
      ((input.following padded).effectiveCapital (priorState padded) named) with
    | none => exact .refused (sameAccounting_unknownEvidence hprior ..)
    | some evidence =>
      refine SameGuards.ite Iff.rfl (fun _ => .denied _) fun _ => ?_
      refine SameGuards.ite Iff.rfl (fun _ => .denied _) fun _ => ?_
      rw [newStockEvents_congr hprior]
      refine SameGuards.ite Iff.rfl (fun _ => .refused ?_) fun _ => .passed ?_
      · obtain ⟨-, hreasons, haccounting⟩ := sameAccounting_unknownEvidence hprior
          (input.following plain).command (input.following padded).command
          (input.following padded).eventId "CAPITAL_COOLING_CONTINUITY_REQUIRED"
        exact ⟨rfl, hreasons, haccounting⟩
      · constructor
        case capital => rfl
        case position => rfl
        case equity => rfl
        case prior =>
          by_cases hop : input.command.operation = .reauthorize
          · exact (congrArg _ (if_pos hop)).trans (congrArg _ (if_pos hop)).symm
          · exact (congrArg _ (if_neg hop)).trans (hprior.trans (congrArg _ (if_neg hop)).symm)
        case predecessor =>
          by_cases hop : input.command.operation = .reauthorize
          · exact (if_pos hop).trans (hepoch.trans (if_pos hop).symm)
          · exact (if_neg hop).trans (hpredecessor.trans (if_neg hop).symm)
        case closure =>
          exact congrArg (fun closed => decide (input.command.operation = .close ∧
            ((!fullyReconciledZero evidence.1) = true ∨ closed = true))) hclosed

end Histories

/-- What an epoch is after an observation depends on its accounting and on its closure. -/
theorem epochProgress_eq (command : DrawdownCommand) (basis : DrawdownBasis)
    (sessions : SessionReading) (recovery : RecoveryProgress) :
    ((epochProgress command basis sessions recovery).status,
        (epochProgress command basis sessions recovery).closedAt) =
      if command.operation = .close ∧ !basis.closureDenied then (.closed, some command.cutoffAt)
      else (basis.prior.elim .open (·.epochStatus),
        basis.prior.bind (·.closedAt)) := by
  unfold epochProgress
  by_cases hclose : command.operation = .close ∧ !basis.closureDenied
  · rw [if_pos hclose, if_pos hclose]
  · rw [if_neg hclose, if_neg hclose]
    cases basis.prior with
    | none => rfl
    | some prior =>
      dsimp only [Option.elim_some, Option.bind_some]
      cases hstatus : prior.epochStatus with
      | «open» => rfl
      | closed =>
        split
        · rename_i h
          exact nomatch h
        · split
          · rfl
          · split <;> rfl

/-- The accounting of an observation depends on the accounting that it continues alone. -/
theorem accounting_nextState (h : SameBasis basis basis') (plain padded : List DrawdownOutcome)
    (reading : DrawdownReading) :
    (nextState ctx (input.following plain) basis reading).accounting =
      (nextState ctx (input.following padded) basis' reading).accounting := by
  have hstatus : basis.prior.elim EpochStatus.open (fun s => s.epochStatus) =
      basis'.prior.elim EpochStatus.open fun t => t.epochStatus :=
    accounting_congr (·.elim _ (·.epochStatus)) (·.epochStatus) h.prior fun _ => rfl
  have hmaximum : basis.prior.elim 0 (fun s => s.maximumDrawdown) =
      basis'.prior.elim 0 fun t => t.maximumDrawdown :=
    accounting_congr (·.elim 0 (·.maximumDrawdown)) (·.maximumDrawdown) h.prior fun _ => rfl
  have hclosed : basis.prior.bind (·.closedAt) = basis'.prior.bind (·.closedAt) :=
    accounting_congr (·.bind (·.closedAt)) (·.closedAt) h.prior fun _ => rfl
  have hprogress := epochProgress_eq (input.following plain).command basis
    (sessionReading (input.following plain).command basis.prior basis.position)
    (riskProgress ctx (input.following plain) basis reading)
  have hprogress' := epochProgress_eq (input.following padded).command basis'
    (sessionReading (input.following padded).command basis'.prior basis'.position)
    (riskProgress ctx (input.following padded) basis' reading)
  rw [h.closure, hstatus, hclosed] at hprogress
  have hsame := Prod.mk.inj (hprogress.trans hprogress'.symm)
  simp only [DrawdownState.accounting, nextState, CapitalAccounting.mk.injEq]
  refine ⟨rfl, rfl, ?_, rfl, rfl, rfl, ?_, trivial, trivial, ?_, ?_, trivial, hsame.1, hsame.2,
    h.predecessor, accounting_congr (·.elim _ (·.reauthorization)) (·.reauthorization) h.prior
      fun _ => rfl⟩
  · rw [h.capital]
  · rw [hmaximum]
  · rw [h.position]
  · rw [h.position]

theorem drawdownReading_congr (h : SameBasis basis basis') (plain padded : List DrawdownOutcome) :
    drawdownReading (input.following plain) basis =
      drawdownReading (input.following padded) basis' := by
  unfold drawdownReading
  rcases accounting_cases h.prior with ⟨hs, ht⟩ | ⟨s, t, hs, ht, hst⟩
  · rw [hs, ht, h.equity]
  · rw [hs, ht, h.equity, h.position]
    have hunits : adjustedUnits input s basis'.position = adjustedUnits input t basis'.position :=
      adjustedUnits_congr hst basis'.position
    exact congrArg (Except.map (·.read basis'.equity)) hunits

/-- What follows the guards ends alike and leaves the same accounting. -/
theorem sameAccounting_of_sameBasis (h : SameBasis basis basis')
    {plain padded : List DrawdownOutcome}
    (hplain : drawdownBasis ctx plain (input.following plain) = .ok basis)
    (hpadded : drawdownBasis ctx padded (input.following padded) = .ok basis') :
    SameAccounting (adjudicate ctx plain (input.following plain))
      (adjudicate ctx padded (input.following padded)) := by
  have hopened : basis.prior = none ↔ basis'.prior = none := by
    rcases accounting_cases h.prior with ⟨hs, ht⟩ | ⟨s, t, hs, ht, -⟩
    · simp only [hs, ht]
    · simp only [hs, ht, reduceCtorEq]
  unfold adjudicate
  rw [hplain, hpadded]
  dsimp only
  rw [drawdownReading_congr h plain padded]
  cases drawdownReading (input.following padded) basis' with
  | error reason => exact sameAccounting_unknownEvidence h.prior ..
  | ok reading =>
    constructor
    case disposition => simp only [h.closure]
    case reasons => simp only [h.closure, hopened]
    case accounting => exact congrArg some (accounting_nextState h plain padded reading)

/-- On two histories with the same accounting, a command that follows either one ends alike and
leaves the same accounting, unless it opens a new epoch that only one of them confirms. -/
theorem sameAccounting_adjudicate {plain padded : List DrawdownOutcome}
    (hprior : (priorState plain).map (·.accounting) = (priorState padded).map (·.accounting))
    (hconfirmed : ConfirmedAlike plain padded input)
    (hplain : ∀ s, priorState plain = some s → s.cutoffAt < input.command.cutoffAt)
    (hpadded : ∀ t, priorState padded = some t → t.cutoffAt < input.command.cutoffAt) :
    SameAccounting (adjudicate ctx plain (input.following plain))
      (adjudicate ctx padded (input.following padded)) := by
  have hguards : SameGuards (drawdownBasis ctx plain (input.following plain))
      (drawdownBasis ctx padded (input.following padded)) :=
    sameGuards_drawdownBasis hprior hconfirmed hplain hpadded
  generalize hbasis : drawdownBasis ctx plain (input.following plain) = result at hguards
  generalize hbasis' : drawdownBasis ctx padded (input.following padded) = result' at hguards
  cases hguards with
  | refused h =>
    unfold adjudicate
    rw [hbasis, hbasis']
    exact h
  | passed h => exact sameAccounting_of_sameBasis h hbasis hbasis'

/-- What both histories observe, they account for alike. -/
theorem sameAccounting_of_observed {plain padded : List DrawdownOutcome}
    (hprior : (priorState plain).map (·.accounting) = (priorState padded).map (·.accounting))
    {reading' : DrawdownReading} (hplain : FollowsLatest plain (input.following plain))
    (hpadded : FollowsLatest padded (input.following padded))
    (hobserved : Observed ctx plain (input.following plain) basis reading)
    (hobserved' : Observed ctx padded (input.following padded) basis' reading') :
    SameAccounting (adjudicate ctx plain (input.following plain))
      (adjudicate ctx padded (input.following padded)) := by
  refine sameAccounting_adjudicate hprior (fun hop named hnamed => ?_) hplain.later hpadded.later
  obtain ⟨other, hother, hcapital⟩ := hobserved.passed.capital
  obtain ⟨other', hother', hcapital'⟩ := hobserved'.passed.capital
  obtain rfl := Option.some.inj (hother.symm.trans hnamed)
  obtain rfl := Option.some.inj (hother'.symm.trans hnamed)
  rw [← hcapital, ← hcapital', hobserved.passed.confirmed hop, hobserved'.passed.confirmed hop]

end Agreement

section Runs

variable {outcome : DrawdownOutcome} {history : List DrawdownOutcome} {ctx : DecimalContext}
  {plain padded : List DrawdownOutcome} {input : DrawdownInput}

/-- Two runs of the same commands, the second with unknown outcomes in between. Each command
names the decisions of its own run, and ends alike in both. -/
inductive Padded (ctx : DecimalContext) : List DrawdownOutcome → List DrawdownOutcome → Prop where
  | nil : Padded ctx [] []
  | both {plain padded : List DrawdownOutcome} (h : Padded ctx plain padded)
      (input : DrawdownInput) (link link' : Option String)
      (hdisposition : (adjudicate ctx plain (input.linked link)).disposition =
        (adjudicate ctx padded (input.linked link')).disposition)
      (hstate : (adjudicate ctx plain (input.linked link)).state.isSome =
        (adjudicate ctx padded (input.linked link')).state.isSome) :
      Padded ctx (plain ++ [adjudicate ctx plain (input.linked link)])
        (padded ++ [adjudicate ctx padded (input.linked link')])
  | unknown {plain padded : List DrawdownOutcome} (h : Padded ctx plain padded)
      (input : DrawdownInput) (hunknown : (adjudicate ctx padded input).disposition = .unknown) :
      Padded ctx plain (padded ++ [adjudicate ctx padded input])

/-- A command that leaves a state, however it is linked, follows the history. -/
theorem following_of_state {link : Option String}
    (h : (adjudicate ctx history (input.linked link)).state = some state) :
    FollowsLatest history (input.following history) ∧ input.linked link = input.following history ∧
      state.cutoffAt = input.command.cutoffAt := by
  obtain ⟨hfollows, hcutoff⟩ := follows_of_state h
  have hlinked : input.following history = input.linked link := hfollows.following_eq
  exact ⟨hlinked ▸ hfollows, hlinked.symm, hcutoff⟩

/-- A refusal that leaves a state retains the accounting. -/
theorem Refusal.retains (h : Refusal history input outcome) (hstate : outcome.state = some state) :
    (priorState history).map (·.accounting) = some state.accounting ∧
      (outcome.disposition = .unknown ∨
        outcome.disposition = .denied ∧ input.command.operation = .reauthorize) := by
  cases h with
  | denied reason => exact nomatch hstate
  | unknown reason hfollows =>
    obtain ⟨prior, hlatest, rfl⟩ := Option.map_eq_some_iff.mp hstate
    exact ⟨by rw [hlatest]; rfl, Or.inl rfl⟩
  | cooling reason hfollows hop =>
    obtain ⟨prior, hlatest, rfl⟩ := Option.map_eq_some_iff.mp hstate
    exact ⟨by rw [hlatest]; rfl, Or.inr ⟨rfl, hop⟩⟩

theorem Observed.disposition_cases (h : Observed ctx history input basis reading) :
    (adjudicate ctx history input).disposition = .accepted ∨
      (adjudicate ctx history input).disposition = .denied ∧ input.command.operation = .close := by
  rw [h.disposition]
  by_cases hdenied : basis.closureDenied = true
  · exact .inr ⟨if_pos hdenied, (h.passed.closureDenied.mp hdenied).1⟩
  · exact .inl (if_neg hdenied)

/-- A refusal and an observation of one command do not end alike. -/
theorem Refusal.ne_observed {history' : List DrawdownOutcome} {input' : DrawdownInput}
    (h : Refusal history input outcome) (hstate : outcome.state = some state)
    (hobserved : Observed ctx history' input' basis reading)
    (hop : input'.command.operation = input.command.operation) :
    outcome.disposition ≠ (adjudicate ctx history' input').disposition := by
  intro heq
  obtain ⟨-, hunknown | ⟨hdenied, hreauthorize⟩⟩ := h.retains hstate
  · rcases hobserved.disposition_cases with haccepted | ⟨hdenied, -⟩
    · exact nomatch hunknown.symm.trans (heq.trans haccepted)
    · exact nomatch hunknown.symm.trans (heq.trans hdenied)
  · rcases hobserved.disposition_cases with haccepted | ⟨-, hclose⟩
    · exact nomatch hdenied.symm.trans (heq.trans haccepted)
    · exact nomatch hclose.symm.trans (hop.trans hreauthorize)

/-- An accepted command is observed, and follows the history. -/
theorem observed_of_accepted (h : (adjudicate ctx history input).disposition = .accepted) :
    FollowsLatest history input ∧ ∃ basis reading, Observed ctx history input basis reading := by
  rcases refusal_or_observed ctx history input with hrefusal | hobserved
  · generalize adjudicate ctx history input = outcome at h hrefusal
    cases hrefusal with
    | denied reason => exact nomatch h
    | unknown reason hfollows => exact nomatch h
    | cooling reason hfollows hop => exact nomatch h
  · exact hobserved

/-- The states that one command leaves in both runs carry the same accounting. -/
theorem accounting_of_both
    (hprior : (priorState plain).map (·.accounting) = (priorState padded).map (·.accounting))
    (hdisposition : (adjudicate ctx plain (input.following plain)).disposition =
      (adjudicate ctx padded (input.following padded)).disposition) {s t : DrawdownState}
    (hs : (adjudicate ctx plain (input.following plain)).state = some s)
    (ht : (adjudicate ctx padded (input.following padded)).state = some t) :
    s.accounting = t.accounting := by
  rcases refusal_or_observed ctx plain (input.following plain) with
    hrefusal | ⟨hfollows, basis, reading, hobserved⟩
  · rcases refusal_or_observed ctx padded (input.following padded) with
      hrefusal' | ⟨-, basis', reading', hobserved'⟩
    · have hkept := (hrefusal.retains hs).1
      have hkept' := (hrefusal'.retains ht).1
      exact Option.some.inj (hkept.symm.trans (hprior.trans hkept'))
    · exact absurd hdisposition (hrefusal.ne_observed hs hobserved' rfl)
  · rcases refusal_or_observed ctx padded (input.following padded) with
      hrefusal' | ⟨hfollows', basis', reading', hobserved'⟩
    · exact absurd hdisposition.symm (hrefusal'.ne_observed ht hobserved rfl)
    · have hsame := (sameAccounting_of_observed hprior hfollows hfollows' hobserved
        hobserved').accounting
      rw [hs, ht] at hsame
      exact Option.some.inj hsame

/-- The latest states of two runs: one accounting, and the padded run is no earlier. -/
structure Aligned (plain padded : List DrawdownOutcome) : Prop where
  accounting : (priorState plain).map (·.accounting) = (priorState padded).map (·.accounting)
  cutoff : ∀ s t, priorState plain = some s → priorState padded = some t →
    s.cutoffAt ≤ t.cutoffAt

/-- One more command that ends alike keeps two runs aligned. -/
theorem Aligned.both (h : Aligned plain padded) {link link' : Option String}
    (hdisposition : (adjudicate ctx plain (input.linked link)).disposition =
      (adjudicate ctx padded (input.linked link')).disposition)
    (hstate : (adjudicate ctx plain (input.linked link)).state.isSome =
      (adjudicate ctx padded (input.linked link')).state.isSome) :
    Aligned (plain ++ [adjudicate ctx plain (input.linked link)])
      (padded ++ [adjudicate ctx padded (input.linked link')]) := by
  cases hs : (adjudicate ctx plain (input.linked link)).state with
  | none =>
    have ht : (adjudicate ctx padded (input.linked link')).state = none := by
      rw [hs] at hstate
      exact Option.not_isSome_iff_eq_none.mp (by rw [← hstate]; exact Bool.false_ne_true)
    constructor
    · simp only [priorState, latest_append_singleton, hs, ht, Option.none_or]
      exact h.accounting
    · simp only [priorState, latest_append_singleton, hs, ht, Option.none_or]
      exact h.cutoff
  | some s =>
    obtain ⟨t, ht⟩ := Option.isSome_iff_exists.mp (hstate.symm.trans (by rw [hs]; rfl))
    obtain ⟨-, hlinked, hcutoff⟩ := following_of_state hs
    obtain ⟨-, hlinked', hcutoff'⟩ := following_of_state ht
    have hplain : priorState (plain ++ [adjudicate ctx plain (input.linked link)]) = some s := by
      rw [priorState, latest_append_singleton, hs, Option.some_or]
    have hpadded : priorState (padded ++ [adjudicate ctx padded (input.linked link')]) =
        some t := by
      rw [priorState, latest_append_singleton, ht, Option.some_or]
    constructor
    case accounting =>
      rw [hlinked, hlinked'] at hdisposition
      rw [hplain, hpadded, Option.map_some, Option.map_some]
      exact congrArg some
        (accounting_of_both h.accounting hdisposition (hlinked ▸ hs) (hlinked' ▸ ht))
    case cutoff =>
      intro s' t' hs' ht'
      obtain rfl := Option.some.inj (hplain.symm.trans hs')
      obtain rfl := Option.some.inj (hpadded.symm.trans ht')
      rw [hcutoff, hcutoff']

/-- An unknown outcome in between keeps two runs aligned. -/
theorem Aligned.unknown (h : Aligned plain padded)
    (hunknown : (adjudicate ctx padded input).disposition = .unknown) :
    Aligned plain (padded ++ [adjudicate ctx padded input]) := by
  obtain ⟨hfollows, hstate⟩ := retained_of_unknown hunknown
  have hnext : priorState (padded ++ [adjudicate ctx padded input]) =
      (priorState padded).map (·.retained input.command input.eventId) := by
    rw [priorState, latest_append_singleton, hstate]
    change (Option.map _ (priorState padded)).or (priorState padded) = _
    cases priorState padded <;> rfl
  constructor
  case accounting =>
    rw [hnext, Option.map_map]
    exact h.accounting
  case cutoff =>
    intro s t hs ht
    rw [hnext] at ht
    obtain ⟨prior, hprior, rfl⟩ := Option.map_eq_some_iff.mp ht
    exact (h.cutoff s prior hs hprior).trans (hfollows.later prior hprior).le

theorem Padded.aligned (h : Padded ctx plain padded) : Aligned plain padded := by
  induction h with
  | nil => exact ⟨rfl, fun s t hs => absurd hs.symm (Option.some_ne_none s)⟩
  | both _ input link link' hdisposition hstate ih => exact ih.both hdisposition hstate
  | unknown _ input hunknown ih => exact ih.unknown hunknown

/-- An unknown outcome retains the accounting and the risk state of the latest state, resets
both counts of sessions and blocks new exposure. -/
structure RetainsAccounting (prior state : DrawdownState) : Prop where
  accounting : state.accounting = prior.accounting
  riskState : state.riskState = prior.riskState
  recoverySessions : state.recoverySessions = 0
  coolingSessions : state.coolingSessions = 0
  newExposureBlocked : state.newExposureBlocked = true

/-- Unknown evidence does not damage the capital accounting: it is retained, and in runs with
unknown outcomes in between a later observation is accepted and accounted for as without. -/
theorem unknown_keeps_accounting (ctx : DecimalContext) :
    (∀ history input, (adjudicate ctx history input).disposition = .unknown →
      Option.Rel RetainsAccounting (priorState history) (adjudicate ctx history input).state) ∧
    ∀ plain padded, Padded ctx plain padded → ∀ input : DrawdownInput,
      (input.command.operation ≠ .reauthorize →
        (adjudicate ctx padded input).disposition = .accepted →
          SameAccounting (adjudicate ctx plain (input.following plain))
            (adjudicate ctx padded input)) ∧
      (input.command.operation ≠ .reauthorize →
        (adjudicate ctx plain input).disposition = .accepted →
        (∀ t, priorState padded = some t → t.cutoffAt < input.command.cutoffAt) →
          SameAccounting (adjudicate ctx padded (input.following padded))
            (adjudicate ctx plain input)) ∧
      ((adjudicate ctx plain (input.following plain)).disposition = .accepted →
        (adjudicate ctx padded (input.following padded)).disposition = .accepted →
          (adjudicate ctx plain (input.following plain)).state.map (·.accounting) =
            (adjudicate ctx padded (input.following padded)).state.map (·.accounting)) := by
  constructor
  · intro history input hunknown
    obtain ⟨-, hstate⟩ := retained_of_unknown hunknown
    rw [hstate]
    cases priorState history with
    | none => exact .none
    | some prior => exact .some ⟨rfl, rfl, rfl, rfl, rfl⟩
  · intro plain padded hpadded input
    obtain ⟨haccounting, hcutoff⟩ := hpadded.aligned
    refine ⟨fun hop haccepted => ?_, fun hop haccepted hlater => ?_, fun haccepted haccepted' => ?_⟩
    · obtain ⟨hfollows, -⟩ := observed_of_accepted haccepted
      have hplain : ∀ s, priorState plain = some s → s.cutoffAt < input.command.cutoffAt := by
        intro s hs
        rw [hs] at haccounting
        obtain ⟨t, ht, -⟩ := Option.map_eq_some_iff.mp haccounting.symm
        exact (hcutoff s t hs ht).trans_lt (hfollows.later t ht)
      have hsame : SameAccounting (adjudicate ctx plain (input.following plain))
          (adjudicate ctx padded (input.following padded)) :=
        sameAccounting_adjudicate haccounting (fun h => absurd h hop) hplain hfollows.later
      rwa [hfollows.following_eq] at hsame
    · obtain ⟨hfollows, -⟩ := observed_of_accepted haccepted
      have hsame : SameAccounting (adjudicate ctx plain (input.following plain))
          (adjudicate ctx padded (input.following padded)) :=
        sameAccounting_adjudicate haccounting (fun h => absurd h hop) hfollows.later hlater
      rw [hfollows.following_eq] at hsame
      exact hsame.symm
    · obtain ⟨hfollows, basis, reading, hobserved⟩ := observed_of_accepted haccepted
      obtain ⟨hfollows', basis', reading', hobserved'⟩ := observed_of_accepted haccepted'
      exact (sameAccounting_of_observed haccounting hfollows hfollows' hobserved
        hobserved').accounting

end Runs

namespace SampleUnknown

open SampleEpochs

def opening : DrawdownInput :=
  onPosition .open "K1" "E1" none "1" (hourOf 20 12) (hourOf 20 12) 100

def missing : DrawdownInput :=
  { onPosition .observe "K1" "E1" (some "1") "2" (hourOf 21 12) (hourOf 21 12) 94 with
    position := none }

def recovered : DrawdownInput :=
  onPosition .observe "K1" "E1" (some "2") "3" (hourOf 22 12) (hourOf 22 12) 94

def opened : List DrawdownOutcome := [adjudicate decimals [] opening]

def interrupted : List DrawdownOutcome := opened ++ [adjudicate decimals opened missing]

theorem interrupted_spec : (adjudicate decimals opened missing).disposition = .unknown ∧
    (adjudicate decimals interrupted recovered).disposition = .accepted := by
  decide +kernel

theorem padded_interrupted : Padded decimals opened interrupted :=
  .unknown (.both .nil opening none none rfl rfl) missing interrupted_spec.1

end SampleUnknown

open SampleUnknown in
/-- The observation after an unknown cutoff is accounted for as if it followed the opening. -/
theorem sample_unknown : SameAccounting
    (adjudicate SampleEpochs.decimals opened (recovered.following opened))
    (adjudicate SampleEpochs.decimals interrupted recovered) :=
  ((unknown_keeps_accounting SampleEpochs.decimals).2 opened interrupted padded_interrupted
    recovered).1 (by decide) interrupted_spec.2

end StockProfiler.Portfolio
