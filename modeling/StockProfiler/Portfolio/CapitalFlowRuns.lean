import StockProfiler.Portfolio.CapitalFlows
import StockProfiler.Portfolio.DrawdownSessions

/-!
# Capital flows along a run

A run of commands continues any history. In it the units stay nonnegative and the peak
positive, an epoch takes no flow identity twice, and a transfer is accounted for again
only after an observation of a position that lost it.
-/

namespace StockProfiler.Portfolio

open PositionManagement

/-- The run of commands that continues a history. -/
def continuedRun (ctx : DecimalContext) (base : List DrawdownOutcome)
    (inputs : List DrawdownInput) : List (HistoryStep DrawdownInput DrawdownOutcome) :=
  trace (fun history => adjudicate ctx (base ++ history)) inputs

/-- A step accounts for the flows of its command, on a prior state. -/
structure Accounts (ctx : DecimalContext) (history : List DrawdownOutcome)
    (input : DrawdownInput) (prior : DrawdownState) (basis : DrawdownBasis)
    (accounting : UnitAccounting) : Prop where
  observed : observation ctx history input = some (basis, accounting.read basis.equity)
  accounted : adjustedUnits input prior basis.position = .ok accounting
  continues : basis.prior = some prior

section Step

variable {ctx : DecimalContext} {history : List DrawdownOutcome} {input : DrawdownInput}
  {basis : DrawdownBasis} {reading : DrawdownReading} {prior : DrawdownState}
  {accounting : UnitAccounting}

/-- The guards let no epoch start without equity. -/
def StartsPositive (input : DrawdownInput) : Except DrawdownOutcome DrawdownBasis → Prop
  | .error _ => True
  | .ok basis => input.command.operation.startsEpoch = true → 0 < basis.equity

theorem startsPositive_drawdownBasis (ctx : DecimalContext) (history : List DrawdownOutcome)
    (input : DrawdownInput) : StartsPositive input (drawdownBasis ctx history input) := by
  unfold drawdownBasis
  cases input.namedCapital with
  | none => exact trivial
  | some named =>
    refine iteInduction (fun _ => trivial) fun _ => ?_
    refine iteInduction (fun _ => trivial) fun _ => ?_
    refine iteInduction (fun _ => trivial) fun _ => ?_
    refine iteInduction (fun _ => trivial) fun _ => ?_
    refine iteInduction (fun _ => trivial) fun _ => ?_
    refine iteInduction (fun _ => trivial) fun _ => ?_
    cases input.completeEvidence (priorState history)
      (input.effectiveCapital (priorState history) named) with
    | none => exact trivial
    | some evidence =>
      refine iteInduction (fun _ => trivial) fun hequity => ?_
      refine iteInduction (fun _ => trivial) fun _ => ?_
      refine iteInduction (fun _ => trivial) fun _ => ?_
      intro hstarts
      exact not_le.mp fun hle => hequity ⟨hle, hstarts⟩

theorem Observed.equity_pos (h : Observed ctx history input basis reading)
    (hprior : basis.prior = none) : 0 < basis.equity := by
  have hpositive := startsPositive_drawdownBasis ctx history input
  have hobserved := h.observed
  unfold observation at hobserved
  cases hbasis : drawdownBasis ctx history input with
  | error outcome =>
    rw [hbasis] at hobserved
    exact nomatch hobserved
  | ok found =>
    rw [hbasis] at hobserved hpositive
    obtain ⟨_, _, hpair⟩ := Option.map_eq_some_iff.mp hobserved
    obtain ⟨rfl, -⟩ := Prod.mk.inj hpair
    refine hpositive ?_
    by_cases hop : input.command.operation = .reauthorize
    · rw [hop]
      rfl
    · have hnone : priorState history = none := by
        rw [← hprior, h.passed.prior, if_neg hop]
      have hopen : input.command.operation = .open := by
        by_contra hne
        have hconflict := h.passed.continues hne
        rw [hnone] at hconflict
        exact nomatch hconflict
      rw [hopen]
      rfl

/-- An observation is one of the two ends of an adjudication. -/
theorem observed_of_observation (h : observation ctx history input = some (basis, reading)) :
    Observed ctx history input basis reading := by
  rcases adjudicate_cases ctx history input with ⟨hnone, -⟩ | ⟨basis', reading', hobserved⟩
  · exact nomatch hnone.symm.trans h
  · obtain ⟨rfl, rfl⟩ := hobserved.of_observation h
    exact hobserved

/-- An observation of a continued epoch accounts for the flows of its command. -/
theorem Observed.accounts (h : Observed ctx history input basis reading)
    (hprior : basis.prior = some prior) :
    ∃ accounting, Accounts ctx history input prior basis accounting ∧
      reading = accounting.read basis.equity := by
  have hread := h.read
  rw [drawdownReading, hprior] at hread
  cases haccounted : adjustedUnits input prior basis.position with
  | error reason =>
    simp only [haccounted] at hread
    cases hread
  | ok accounting =>
    simp only [haccounted] at hread
    have hreading : accounting.read basis.equity = reading := Except.ok.inj hread
    exact ⟨accounting, ⟨hreading ▸ h.observed, haccounted, hprior⟩, hreading.symm⟩

namespace Accounts

variable (h : Accounts ctx history input prior basis accounting)
include h

/-- The flows go on from the latest state, of the epoch that the command names. -/
theorem latest : priorState history = some prior ∧ input.command.epochId = prior.epochId :=
  have hcontinued := (observed_of_observation h.observed).passed.continued h.continues
  ⟨hcontinued.1, hcontinued.2.2.1⟩

theorem state : (adjudicate ctx history input).state =
    some (nextState ctx input basis (accounting.read basis.equity)) :=
  (observed_of_observation h.observed).state

theorem covers : FlowsCover input prior basis.position :=
  (adjustedUnits_eq_ok.mp h.accounted).1

end Accounts

/-- The units are not negative, and the peak is positive. -/
structure SoundUnits (state : DrawdownState) : Prop where
  units : 0 ≤ state.exactUnits.fraction
  peak : 0 < state.exactPeak.fraction

/-- The units of an observation are not negative, and its peak is positive. -/
theorem Observed.soundUnits (h : Observed ctx history input basis reading)
    (hbase : ∀ state, priorState history = some state → SoundUnits state) :
    0 ≤ reading.units ∧ 0 < reading.peak := by
  have hpeak := drawdownReading_peak h.read
  have hread := h.read
  cases hprior : basis.prior with
  | none =>
    rw [drawdownReading, hprior] at hread
    cases hread
    rw [hprior] at hpeak
    refine ⟨?_, lt_of_lt_of_le zero_lt_one hpeak⟩
    exact (h.equity_pos hprior).le
  | some prior =>
    obtain ⟨accounting, haccounts, rfl⟩ := h.accounts hprior
    rw [hprior] at hpeak
    obtain ⟨hunits, hprior⟩ := hbase prior haccounts.latest.1
    refine ⟨?_, hprior.trans_le hpeak⟩
    obtain ⟨-, progress, hprogress, rfl⟩ := adjustedUnits_eq_ok.mp haccounts.accounted
    exact nonneg_of_accountFlows hprogress hunits

theorem soundUnits_of_state
    (hbase : ∀ state, priorState history = some state → SoundUnits state) {state : DrawdownState}
    (hstate : (adjudicate ctx history input).state = some state) : SoundUnits state := by
  rcases adjudicate_cases ctx history input with
    ⟨-, hrefused⟩ | ⟨basis, reading, hobserved⟩
  · rcases hrefused.state with hnone | ⟨prior, hprior, hretained⟩
    · exact nomatch hnone.symm.trans hstate
    · obtain rfl := Option.some.inj (hretained.symm.trans hstate)
      obtain ⟨hunits, hpeak⟩ := hbase prior hprior
      exact ⟨hunits, hpeak⟩
  · obtain rfl := Option.some.inj (hobserved.state.symm.trans hstate)
    obtain ⟨hunits, hpeak⟩ := hobserved.soundUnits hbase
    constructor
    · change 0 ≤ (ExactRatio.ofFraction reading.units).fraction
      rwa [ExactRatio.fraction_ofFraction]
    · change 0 < (ExactRatio.ofFraction reading.peak).fraction
      rwa [ExactRatio.fraction_ofFraction]

/-- An epoch keeps the flow identities that it has processed. -/
theorem continues_flowIds {state : DrawdownState}
    (hstate : (adjudicate ctx history input).state = some state) :
    HistoryRun.Continues DrawdownOutcome.state DrawdownState.epochId
      (fun prior next => prior.processedFlowIds ⊆ next.processedFlowIds) history state := by
  rcases adjudicate_cases ctx history input with
    ⟨-, hrefused⟩ | ⟨basis, reading, hobserved⟩
  · rcases hrefused.state with hnone | ⟨prior, hprior, hretained⟩
    · exact nomatch hnone.symm.trans hstate
    · obtain rfl := Option.some.inj (hretained.symm.trans hstate)
      exact .inl ⟨prior, hprior, rfl, List.Subset.refl _⟩
  · obtain rfl := Option.some.inj (hobserved.state.symm.trans hstate)
    cases hprior : basis.prior with
    | some prior =>
      obtain ⟨accounting, haccounts, rfl⟩ := hobserved.accounts hprior
      obtain ⟨hlatest, hepoch⟩ := haccounts.latest
      obtain ⟨-, progress, -, hflows⟩ := adjustedUnits_eq_ok.mp haccounts.accounted
      refine .inl ⟨prior, hlatest, hepoch.symm, fun id hid => ?_⟩
      change id ∈ accounting.flowIds
      rw [hflows]
      exact List.mem_append_left _ hid
    | none =>
      right
      by_cases hop : input.command.operation = .reauthorize
      · obtain ⟨-, -, -, -, hunused⟩ := hobserved.passed.reauthorized hop
        exact hunused
      · have hnone : priorState history = none := by
          rw [← hprior, hobserved.passed.prior, if_neg hop]
        intro o ho state hstate
        exact nomatch hstate.symm.trans (latest_eq_none.mp hnone o ho)

end Step

section Runs

variable {key : FlowLedgerKey} (ctx : DecimalContext) (base : List DrawdownOutcome)
  (inputs : List DrawdownInput)

theorem historyRun_continuedRun :
    HistoryRun (fun history input outcome => adjudicate ctx (base ++ history) input = outcome)
      (continuedRun ctx base inputs) :=
  historyRun_trace (fun history => adjudicate ctx (base ++ history)) inputs

variable {ctx base}

/-- The latest state before a step is sound, and so is the state that it leaves. -/
theorem soundUnits_continuedRun (hbase : ∀ state, priorState base = some state → SoundUnits state) :
    ∀ e ∈ continuedRun ctx base inputs, ∀ state,
      priorState (base ++ e.before) = some state ∨ e.outcome.state = some state →
        SoundUnits state := by
  refine (historyRun_continuedRun ctx base inputs).forall_mem
    fun {run input outcome} _ ih hstep => ?_
  have hprior : ∀ state, priorState (base ++ outcomes run) = some state → SoundUnits state := by
    intro state hstate
    rw [priorState, latest_append] at hstate
    cases hlatest : latest (·.state) (outcomes run) with
    | none =>
      rw [hlatest, Option.none_or] at hstate
      exact hbase state hstate
    | some last =>
      rw [hlatest, Option.some_or] at hstate
      obtain ⟨o, ho, hlast⟩ := mem_of_latest hlatest
      obtain ⟨e, he, rfl⟩ := List.mem_map.mp ho
      exact ih e he state (.inr (hlast.trans hstate))
  rintro state (hstate | hstate)
  · exact hprior state hstate
  · exact soundUnits_of_state hprior (hstep ▸ hstate)

/-- The flow identities of an epoch are processed once along a run. -/
theorem flowIds_continuedRun :
    (continuedRun ctx base inputs).Pairwise fun e e' =>
      ∀ prior basis accounting prior' basis' accounting',
        Accounts ctx (base ++ e.before) e.input prior basis accounting →
        Accounts ctx (base ++ e'.before) e'.input prior' basis' accounting' →
        e.input.command.epochId = e'.input.command.epochId →
          ∀ flow ∈ e.input.command.capitalFlows, ∀ flow' ∈ e'.input.command.capitalFlows,
            flow.flowId ≠ flow'.flowId := by
  have hrun := historyRun_continuedRun ctx base inputs
  refine hrun.pairwise fun {run input outcome} h _ _ e he => ?_
  intro prior basis accounting prior' basis' accounting' haccounts haccounts' hepoch
    flow hflow flow' hflow' heq
  have hstate : e.outcome.state =
      some (nextState ctx e.input basis (accounting.read basis.equity)) := by
    rw [← h.step_of_mem he]
    exact haccounts.state
  obtain ⟨hlatest, hepoch'⟩ := haccounts'.latest
  have hlast : latest (·.state) (outcomes run) = some prior' := by
    change latest _ (base ++ outcomes run) = _ at hlatest
    rw [latest_append] at hlatest
    cases hfound : latest (·.state) (outcomes run) with
    | some last =>
      rw [hfound, Option.some_or] at hlatest
      exact hlatest
    | none =>
      have hnone := latest_eq_none.mp hfound e.outcome (List.mem_map_of_mem he)
      exact nomatch hnone.symm.trans hstate
  have hkept := h.related_latest DrawdownOutcome.state DrawdownState.epochId
    (fun prior next => prior.processedFlowIds ⊆ next.processedFlowIds) (fun _ => List.Subset.refl _)
    List.Subset.trans
    (fun {history input outcome} hstep next hnext =>
      (continues_flowIds (hstep ▸ hnext)).of_append) he hstate hlast (hepoch.trans hepoch')
  refine haccounts'.covers.fresh flow'.flowId (List.mem_map_of_mem hflow') (hkept ?_)
  obtain ⟨-, progress, -, hflows⟩ := adjustedUnits_eq_ok.mp haccounts.accounted
  change flow'.flowId ∈ accounting.flowIds
  rw [hflows, ← heq]
  exact List.mem_append_right _ (List.mem_map_of_mem hflow)

/-- A processed transfer stays processed as long as the observed positions keep it. -/
theorem processed_of_kept {run later : List (HistoryStep DrawdownInput DrawdownOutcome)}
    (h : HistoryRun (fun history input outcome =>
      adjudicate ctx (base ++ history) input = outcome) (run ++ later))
    (hrun : ∀ state, priorState (base ++ outcomes run) = some state →
      key ∈ state.processedTransfers) (hkept : ∀ e ∈ later, ∀ basis reading,
      observation ctx (base ++ e.before) e.input = some (basis, reading) →
        key ∈ transferKeys basis.position) :
    ∀ state, priorState (base ++ outcomes (run ++ later)) = some state →
      key ∈ state.processedTransfers := by
  induction later using List.reverseRecOn with
  | nil => rwa [List.append_nil]
  | append_singleton later e ih =>
    rw [← List.append_assoc] at h ⊢
    have ih := ih h.of_append fun e he => hkept e (List.mem_append_left _ he)
    have hbefore : e.before = outcomes (run ++ later) := h.before_eq rfl
    have hstep := h.step_of_mem (List.mem_append_right _ (List.mem_singleton_self e))
    intro state hstate
    rw [outcomes_append, ← List.append_assoc, outcomes_singleton, priorState,
      latest_append_singleton] at hstate
    cases houtcome : e.outcome.state with
    | none =>
      rw [houtcome, Option.none_or] at hstate
      exact ih state hstate
    | some next =>
      rw [houtcome, Option.some_or] at hstate
      cases hstate
      rw [← hstep] at houtcome
      rcases adjudicate_cases ctx (base ++ e.before) e.input with
        ⟨-, hrefused⟩ | ⟨basis, reading, hobserved⟩
      · rcases hrefused.state with hnone | ⟨prior, hprior, hretained⟩
        · exact nomatch hnone.symm.trans houtcome
        · obtain rfl := Option.some.inj (hretained.symm.trans houtcome)
          rw [hbefore] at hprior
          exact ih prior hprior
      · obtain rfl := Option.some.inj (hobserved.state.symm.trans houtcome)
        exact hkept e (List.mem_append_right _ (List.mem_singleton_self e)) basis reading
          hobserved.observed

/-- A transfer is accounted for again only after an observed position that lost it. -/
theorem lost_between {first last : HistoryStep DrawdownInput DrawdownOutcome}
    {earlier between later : List (HistoryStep DrawdownInput DrawdownOutcome)}
    (hrun : continuedRun ctx base inputs = earlier ++ first :: between ++ last :: later)
    {prior prior' : DrawdownState} {basis basis' : DrawdownBasis}
    {accounting accounting' : UnitAccounting}
    (hfirst : Accounts ctx (base ++ first.before) first.input prior basis accounting)
    (hlast : Accounts ctx (base ++ last.before) last.input prior' basis' accounting')
    (hkey : key ∈ first.input.command.capitalFlows.flatMap (·.ledgerKeys))
    (hkey' : key ∈ last.input.command.capitalFlows.flatMap (·.ledgerKeys)) :
    ∃ e ∈ between, ∃ basis reading,
      observation ctx (base ++ e.before) e.input = some (basis, reading) ∧
        key ∉ transferKeys basis.position := by
  by_contra hnone
  have h := historyRun_continuedRun ctx base inputs
  rw [hrun] at h
  have hbefore : last.before = outcomes (earlier ++ first :: between) := h.before_eq rfl
  have h := h.of_append
  have hsplit : earlier ++ first :: between = (earlier ++ [first]) ++ between := by simp
  rw [hsplit] at h hbefore
  have hstep := h.step_of_mem (List.mem_append_left _
    (List.mem_append_right _ (List.mem_singleton_self first)))
  have hstart : ∀ state, priorState (base ++ outcomes (earlier ++ [first])) = some state →
      key ∈ state.processedTransfers := by
    intro state hstate
    rw [outcomes_append, ← List.append_assoc, outcomes_singleton, priorState,
      latest_append_singleton, ← hstep, hfirst.state, Option.some_or] at hstate
    cases hstate
    exact ((hfirst.covers.covered key).mp hkey).1
  refine ((hlast.covers.covered key).mp hkey').2 ?_
  refine processed_of_kept h hstart (fun e he basis reading hobserved => ?_) prior' ?_
  · by_contra hlost
    exact hnone ⟨e, he, basis, reading, hobserved, hlost⟩
  · rw [← hbefore]
    exact hlast.latest.1

end Runs

end StockProfiler.Portfolio
