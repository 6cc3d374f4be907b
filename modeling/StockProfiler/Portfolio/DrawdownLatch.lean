import StockProfiler.Portfolio.Drawdown

/-!
# The drawdown latch

Within one epoch the peak and the maximum drawdown never decrease, and the risk
state is lowered one level at a time by completed recoveries only. A new epoch
needs an accepted reauthorization under an identity that was never used.
-/

namespace StockProfiler.Portfolio

open PositionManagement

variable {outcome : DrawdownOutcome} {prior state : DrawdownState}
  {position : PositionReconciliationOutcome} {ctx : DecimalContext} {history : List DrawdownOutcome}
  {input : DrawdownInput}

/-- What the guards establish. -/
structure DrawdownBasis.Passed (ctx : DecimalContext) (history : List DrawdownOutcome)
    (input : DrawdownInput) (basis : DrawdownBasis) : Prop where
  capital : ∃ named, input.namedCapital = some named ∧
    basis.capital = input.effectiveCapital (priorState history) named
  evidence : ∃ total cost, input.completeEvidence (priorState history) basis.capital =
    some (basis.position, total, cost) ∧ basis.equity = ctx.sub total cost
  opens : input.command.operation = .open → priorState history = none
  continues : input.command.operation ≠ .open →
    input.revisionConflict (priorState history) = false
  confirmed : input.command.operation = .reauthorize →
    input.reauthorizationRejected history (priorState history) basis.capital = false
  reconciled : input.command.operation = .reauthorize →
    fullyReconciledZero basis.position = true ∧
      newStockEvents (priorState history) basis.position = []
  prior : basis.prior =
    if input.command.operation = .reauthorize then none else priorState history
  closureDenied : basis.closureDenied = true ↔ input.command.operation = .close ∧
    (fullyReconciledZero basis.position = false ∨
      (priorState history).any (·.epochStatus = .closed) = true)

/-- A command that fails a guard leaves no state, or the retained one. -/
structure Refused (history : List DrawdownOutcome) (input : DrawdownInput)
    (outcome : DrawdownOutcome) : Prop where
  disposition : outcome.disposition ≠ .accepted
  state : outcome.state = none ∨ ∃ prior, priorState history = some prior ∧
    outcome.state = some (prior.retained input.command input.eventId)
  unknown : outcome.disposition = .unknown →
    outcome.state = (priorState history).map (·.retained input.command input.eventId)

theorem refused_denied (reason : String) : Refused history input (.denied reason) :=
  ⟨nofun, .inl rfl, nofun⟩

theorem refused_unknownEvidence (reason : String) :
    Refused history input
      (unknownEvidence (priorState history) input.command input.eventId reason) := by
  refine ⟨nofun, ?_, fun _ => rfl⟩
  cases h : priorState history with
  | none => exact .inl rfl
  | some prior => exact .inr ⟨prior, rfl, rfl⟩

/-- What the guards decide: a refusal, or all that is read later. -/
def Guarded (ctx : DecimalContext) (history : List DrawdownOutcome) (input : DrawdownInput) :
    Except DrawdownOutcome DrawdownBasis → Prop
  | .error outcome => Refused history input outcome
  | .ok basis => basis.Passed ctx history input

/-- The guards refuse a command, or its basis has passed all of them. -/
theorem guarded_drawdownBasis (ctx : DecimalContext) (history : List DrawdownOutcome)
    (input : DrawdownInput) : Guarded ctx history input (drawdownBasis ctx history input) := by
  unfold drawdownBasis
  cases hnamed : input.namedCapital with
  | none => exact refused_denied _
  | some named =>
    refine iteInduction (fun _ => refused_denied _) fun _ => ?_
    refine iteInduction (fun _ => refused_denied _) fun _ => ?_
    refine iteInduction (fun _ => refused_denied _) fun hopen => ?_
    refine iteInduction (fun _ => refused_denied _) fun hrevision => ?_
    refine iteInduction (fun _ => refused_denied _) fun hreauthorize => ?_
    refine iteInduction (fun _ => refused_denied _) fun _ => ?_
    cases hevidence : input.completeEvidence (priorState history)
      (input.effectiveCapital (priorState history) named) with
    | none => exact refused_unknownEvidence _
    | some evidence =>
      obtain ⟨position, total, cost⟩ := evidence
      refine iteInduction (fun _ => refused_denied _) fun _ => ?_
      refine iteInduction (fun _ => refused_denied _) fun hzero => ?_
      refine iteInduction (fun _ => ⟨nofun, (refused_unknownEvidence "").state, nofun⟩)
        fun hevents => ?_
      constructor
      case capital => exact ⟨named, hnamed, rfl⟩
      case evidence => exact ⟨total, cost, hevidence, rfl⟩
      case opens =>
        intro hop
        by_contra hne
        exact hopen ⟨hop, .inl (Option.isSome_iff_ne_none.mpr hne)⟩
      case continues =>
        intro hop
        exact Bool.not_eq_true _ ▸ fun h => hrevision ⟨hop, h⟩
      case confirmed =>
        intro hop
        exact Bool.not_eq_true _ ▸ fun h => hreauthorize ⟨hop, h⟩
      case reconciled =>
        intro hop
        constructor
        · by_contra h
          exact hzero ⟨hop, by simpa using h⟩
        · by_contra h
          exact hevents ⟨hop, h⟩
      case prior => rfl
      case closureDenied => simp

/-- What holds of an observation that leaves a new state. -/
structure Observed (ctx : DecimalContext) (history : List DrawdownOutcome)
    (input : DrawdownInput) (basis : DrawdownBasis) (reading : DrawdownReading) : Prop where
  observed : observation ctx history input = some (basis, reading)
  passed : basis.Passed ctx history input
  read : drawdownReading input basis = .ok reading
  state : (adjudicate ctx history input).state = some (nextState ctx input basis reading)
  disposition : (adjudicate ctx history input).disposition =
    if basis.closureDenied then .denied else .accepted

/-- An adjudication refuses without an observation, or answers from a basis and reading. -/
theorem adjudicate_cases (ctx : DecimalContext) (history : List DrawdownOutcome)
    (input : DrawdownInput) :
    (observation ctx history input = none ∧
      Refused history input (adjudicate ctx history input)) ∨
    ∃ basis reading, Observed ctx history input basis reading := by
  have hguarded := guarded_drawdownBasis ctx history input
  cases hbasis : drawdownBasis ctx history input with
  | error outcome =>
    rw [hbasis] at hguarded
    left
    rw [observation, adjudicate, hbasis]
    exact ⟨rfl, hguarded⟩
  | ok basis =>
    rw [hbasis] at hguarded
    cases hreading : drawdownReading input basis with
    | ok reading =>
      right
      refine ⟨basis, reading, ?_, hguarded, hreading, ?_, ?_⟩
      · rw [observation, hbasis]
        simp only [hreading, Except.toOption, Option.map_some]
      · rw [adjudicate, hbasis]
        simp only [hreading]
      · rw [adjudicate, hbasis]
        simp only [hreading]
    | error reason =>
      left
      rw [observation, adjudicate, hbasis]
      simp only [hreading, Except.toOption, Option.map_none, true_and]
      -- A new epoch is always read, so the command continues the retained state.
      have hprior := hguarded.prior
      split at hprior
      · rw [drawdownReading, hprior] at hreading
        exact nomatch hreading
      · rw [hprior]
        exact refused_unknownEvidence reason

theorem processFlow_peak {progress progress' : FlowProgress} {flow : CapitalFlow}
    (h : processFlow input prior position progress flow = .ok progress') :
    progress.peak ≤ progress'.peak := by
  simp only [processFlow, bind_eq_ok] at h
  obtain ⟨-, -, -, -, -, -, preEquity, -, -, -, -, -, units, -, -, -, h⟩ := h
  rw [← Except.ok.inj h]
  exact le_max_left _ _

/-- The peak of the accounting is at least the retained one. -/
theorem adjustedUnits_peak {accounting : UnitAccounting}
    (h : adjustedUnits input prior position = .ok accounting) :
    prior.exactPeak.fraction ≤ accounting.peak := by
  simp only [adjustedUnits, bind_eq_ok] at h
  obtain ⟨-, -, -, -, -, -, progress, hfold, h⟩ := h
  rw [← Except.ok.inj h]
  exact foldlM_invariant (P := fun progress => prior.exactPeak.fraction ≤ progress.peak)
    (fun s flow s' hs hstep => hs.trans (processFlow_peak hstep)) le_rfl hfold

/-- A reading never lowers the peak. -/
theorem drawdownReading_peak {basis : DrawdownBasis} {reading : DrawdownReading}
    (h : drawdownReading input basis = .ok reading) :
    basis.prior.elim 1 (·.exactPeak.fraction) ≤ reading.peak := by
  have hread : ∀ accounting : UnitAccounting,
      accounting.peak ≤ (accounting.read basis.equity).peak := by
    intro accounting
    simp only [UnitAccounting.read]
    split
    · exact le_rfl
    · exact le_max_left _ _
  rw [drawdownReading] at h
  cases hprior : basis.prior with
  | none =>
    rw [hprior] at h
    rw [← Except.ok.inj h]
    exact hread (openingUnits basis.equity)
  | some prior =>
    rw [hprior] at h
    dsimp only at h
    cases haccounting : adjustedUnits input prior basis.position with
    | error reason =>
      rw [haccounting] at h
      exact nomatch h
    | ok accounting =>
      rw [haccounting] at h
      rw [← Except.ok.inj h]
      exact (adjustedUnits_peak haccounting).trans (hread accounting)

namespace DrawdownBasis.Passed

variable {basis : DrawdownBasis} (h : basis.Passed ctx history input)
include h

/-- A state that is continued is the retained one, of the same epoch and policy. -/
theorem continued (hprior : basis.prior = some prior) :
    priorState history = some prior ∧ input.command.operation ≠ .reauthorize ∧
      input.command.epochId = prior.epochId ∧ input.command.policy = prior.policy := by
  have hbasis := h.prior
  rw [hprior] at hbasis
  split at hbasis
  · exact nomatch hbasis
  · rename_i hop
    have hopen : input.command.operation ≠ .open := fun he => by
      rw [h.opens he] at hbasis
      exact nomatch hbasis
    have hrevision := h.continues hopen
    rw [← hbasis] at hrevision
    simp only [DrawdownInput.revisionConflict, decide_eq_false_iff_not, not_or, not_and,
      not_not] at hrevision
    exact ⟨hbasis.symm, hop, hrevision.2.1 hop, hrevision.2.2.2.2.2⟩

/-- A reauthorization follows a cooled, closed epoch and takes a new identity. -/
theorem reauthorized (hop : input.command.operation = .reauthorize) :
    ∃ prior, priorState history = some prior ∧ prior.epochStatus = .closed ∧
      prior.policy.coolingSessions ≤ prior.coolingSessions ∧
      ∀ o ∈ history, ∀ state, o.state = some state → state.epochId ≠ input.command.epochId := by
  have hconfirmed := h.confirmed hop
  unfold DrawdownInput.reauthorizationRejected at hconfirmed
  dsimp only at hconfirmed
  split at hconfirmed
  · rename_i prior confirmation hprior _
    simp only [decide_eq_false_iff_not, not_or, not_not, not_lt] at hconfirmed
    obtain ⟨hclosed, -, hcooling, -, -, -, -, -, -, -, hnew, -⟩ := hconfirmed
    refine ⟨prior, hprior, hclosed, hcooling, fun o ho state hstate he => hnew ?_⟩
    exact List.any_eq_true.mpr ⟨o, ho, by rw [hstate]; exact decide_eq_true he⟩
  · exact nomatch hconfirmed

end DrawdownBasis.Passed

/-- The risk state that a drawdown reaches. -/
def reachedState (thresholds : DrawdownBudget) (interval : ℚ) : RiskState :=
  if thresholds.preservationRatio ≤ interval then .preservation
  else if thresholds.defensiveRatio ≤ interval then .defensive
  else if thresholds.cautionRatio ≤ interval then .caution
  else .normal

/-- Escalation takes the worse of the retained and the reached state. -/
theorem escalate_level (thresholds : DrawdownBudget) (risk : RiskState) (interval : ℚ) :
    (escalate thresholds risk interval).level =
      max risk.level (reachedState thresholds interval).level := by
  unfold escalate reachedState
  cases risk <;> split_ifs <;> simp_all [RiskState.level]

/-- The position of a command is that of the close of a session. -/
def ObservedClose (input : DrawdownInput) (ordinal : ℤ) : Prop :=
  ∃ position session, input.position = some position ∧
    namedSession input.command = some session ∧ session.ordinal = ordinal ∧
    observedAtClose input.command position session = true

/-- A session completes the recovery of a level. -/
structure CompletesRecovery (input : DrawdownInput) (prior : DrawdownState) (ordinal : ℤ) :
    Prop where
  closed : ObservedClose input ordinal
  forward : prior.lastObservedSession.all (· < ordinal) = true
  gate : gateClear input.command = true
  required : requiredSessions prior.policy prior.riskState ≤
    nextCount prior.recoverySessions prior.lastRecoverySession ordinal

/-- The risk state stays, or recovers by one level behind every gate. -/
theorem recovery_cases (policy : DrawdownPolicy) (thresholds : DrawdownBudget)
    (prior : Option DrawdownState) (risk : RiskState) (reading : DrawdownReading)
    (sessions : SessionReading) (equity exposure : ℚ) :
    (recovery policy thresholds prior risk reading sessions equity exposure).riskState = risk ∨
    ∃ state session, prior = some state ∧ risk = state.riskState ∧
      sessions.gateClear = true ∧ sessions.session = some session ∧ sessions.newClose = true ∧
      recoveryEligible policy thresholds risk reading equity exposure = true ∧
      requiredSessions policy risk ≤
        nextCount state.recoverySessions state.lastRecoverySession session.ordinal ∧
      (recovery policy thresholds prior risk reading sessions equity exposure).riskState =
        risk.recovered := by
  cases prior with
  | none => exact .inl rfl
  | some state =>
    rw [recovery]
    split
    · rename_i hclear
      split
      · exact .inl rfl
      · rename_i session hsession
        obtain ⟨hsession, hnew⟩ := Option.filter_eq_some_iff.mp hsession
        dsimp only
        split
        · rename_i hrequired
          exact .inr ⟨state, session, rfl, hclear.1, hclear.2.1, hsession, hnew, hclear.2.2.2,
            hrequired, rfl⟩
        · exact .inl rfl
    · exact .inl rfl

/-- A level that may recover has not been reached again. -/
theorem reached_le_recovered {policy : DrawdownPolicy} {thresholds : DrawdownBudget}
    {risk : RiskState} {reading : DrawdownReading} {equity exposure : ℚ}
    (h : recoveryEligible policy thresholds risk reading equity exposure = true) :
    (risk = .caution ∨ risk = .defensive) ∧
      (reachedState thresholds reading.intervalDrawdown).level ≤ risk.recovered.level := by
  have hcd := thresholds.caution_lt_defensive
  have hdp := thresholds.defensive_lt_preservation
  unfold recoveryEligible at h
  split at h
  · exact nomatch h
  · rcases of_decide_eq_true h with ⟨rfl, hinterval, -⟩ | ⟨rfl, hinterval, -⟩
    · refine ⟨.inl rfl, ?_⟩
      rw [reachedState, if_neg (by linarith), if_neg (by linarith), if_neg (by linarith)]
      exact le_rfl
    · refine ⟨.inr rfl, ?_⟩
      rw [reachedState, if_neg (by linarith), if_neg (by linarith)]
      split <;> decide

/-- How a state follows the retained one of its epoch. -/
structure Latched (input : DrawdownInput) (prior state : DrawdownState) : Prop where
  peak : prior.exactPeak.fraction ≤ state.exactPeak.fraction
  maximum : prior.maximumDrawdown ≤ state.maximumDrawdown
  observed : ∀ n ∈ prior.lastObservedSession, ∃ m ∈ state.lastObservedSession, n ≤ m
  lowered : state.riskState.level < prior.riskState.level →
    (prior.riskState = .caution ∧ state.riskState = .normal ∨
      prior.riskState = .defensive ∧ state.riskState = .caution) ∧
    ∃ ordinal, CompletesRecovery input prior ordinal

theorem latched_retained (prior : DrawdownState) (command : DrawdownCommand) (eventId : String) :
    Latched input prior (prior.retained command eventId) :=
  ⟨le_rfl, le_rfl, fun n hn => ⟨n, hn, le_rfl⟩, fun h => absurd h (lt_irrefl _)⟩

/-- The evidence of an observation is that of the given position. -/
theorem completeEvidence_position {prior : Option DrawdownState} {capital : PortfolioAuthorization}
    {total cost : ℚ} (h : input.completeEvidence prior capital = some (position, total, cost)) :
    input.position = some position := by
  unfold DrawdownInput.completeEvidence at h
  obtain ⟨given, hgiven, h⟩ := bind_eq_some.mp h
  obtain ⟨equity, -, h⟩ := bind_eq_some.mp h
  obtain ⟨liquidation, -, h⟩ := bind_eq_some.mp h
  obtain ⟨-, -, h⟩ := bind_eq_some.mp h
  obtain ⟨rfl, -⟩ := Prod.mk.inj (Option.some.inj h)
  exact hgiven

/-- A new close is a named session, observed at its close, after all observed ones. -/
theorem newClose_eq_true {command : DrawdownCommand} {prior : Option DrawdownState}
    (h : (sessionReading command prior position).newClose = true) :
    ∃ session, namedSession command = some session ∧
      observedAtClose command position session = true ∧
      (prior.bind (·.lastObservedSession)).all (· < session.ordinal) = true := by
  simp only [sessionReading] at h
  cases hsession : namedSession command with
  | none => simp [hsession] at h
  | some session =>
    simp only [hsession, Option.any_some, Bool.decide_and, Bool.decide_eq_true,
      Bool.and_eq_true] at h
    exact ⟨session, rfl, h⟩

theorem le_lastObserved {n : ℤ} (command : DrawdownCommand)
    (position : PositionReconciliationOutcome) (hn : n ∈ prior.lastObservedSession) :
    ∃ m ∈ (sessionReading command (some prior) position).lastObserved, n ≤ m := by
  rw [Option.mem_def] at hn
  simp only [sessionReading, Option.bind_some, hn, Option.getD_some]
  cases namedSession command with
  | none => exact ⟨n, rfl, le_rfl⟩
  | some session =>
    split
    · exact ⟨_, rfl, le_max_left _ _⟩
    · exact ⟨n, rfl, le_rfl⟩

/-- The risk state escalates, or recovers by one level behind every gate. -/
theorem riskProgress_cases (ctx : DecimalContext) (input : DrawdownInput) (basis : DrawdownBasis)
    (reading : DrawdownReading) :
    (riskProgress ctx input basis reading).riskState =
      escalate basis.capital.proposal.riskBudget.drawdown
        (basis.prior.elim .normal (·.riskState)) reading.intervalDrawdown ∨
    ∃ prior session, basis.prior = some prior ∧ namedSession input.command = some session ∧
      (sessionReading input.command basis.prior basis.position).newClose = true ∧
      gateClear input.command = true ∧
      recoveryEligible input.command.policy basis.capital.proposal.riskBudget.drawdown
        prior.riskState reading basis.equity (stockExposure ctx basis.position) = true ∧
      requiredSessions input.command.policy prior.riskState ≤
        nextCount prior.recoverySessions prior.lastRecoverySession session.ordinal ∧
      (riskProgress ctx input basis reading).riskState = prior.riskState.recovered := by
  rcases recovery_cases input.command.policy basis.capital.proposal.riskBudget.drawdown
    basis.prior (escalate basis.capital.proposal.riskBudget.drawdown
      (basis.prior.elim .normal (·.riskState)) reading.intervalDrawdown) reading
    (sessionReading input.command basis.prior basis.position) basis.equity
    (stockExposure ctx basis.position) with
    hkept | ⟨prior, session, hprior, hrisk, hgate, hsession, hnew, heligible, hrequired, hlowered⟩
  · exact .inl hkept
  · rw [hrisk] at heligible hrequired
    exact .inr ⟨prior, session, hprior, hsession, hnew, hgate, heligible, hrequired,
      hlowered.trans (congrArg RiskState.recovered hrisk)⟩

/-- The risk state covers the drawdown of the step, on a completed recovery too. -/
theorem reached_le_nextState (ctx : DecimalContext) (input : DrawdownInput) (basis : DrawdownBasis)
    (reading : DrawdownReading) :
    (reachedState basis.capital.proposal.riskBudget.drawdown reading.intervalDrawdown).level ≤
      (nextState ctx input basis reading).riskState.level := by
  change _ ≤ (riskProgress ctx input basis reading).riskState.level
  rcases riskProgress_cases ctx input basis reading with
    hkept | ⟨_, _, -, -, -, -, heligible, -, hlowered⟩
  · rw [hkept, escalate_level]
    exact le_max_right _ _
  · rw [hlowered]
    exact (reached_le_recovered heligible).2

namespace Observed

variable {basis : DrawdownBasis} {reading : DrawdownReading}
  (h : Observed ctx history input basis reading)
include h

/-- A risk state is lowered by one level, by the session that completes its recovery. -/
theorem lowered (hprior : basis.prior = some prior)
    (hlt : (nextState ctx input basis reading).riskState.level < prior.riskState.level) :
    (prior.riskState = .caution ∧ (nextState ctx input basis reading).riskState = .normal ∨
      prior.riskState = .defensive ∧
        (nextState ctx input basis reading).riskState = .caution) ∧
    ∃ ordinal, CompletesRecovery input prior ordinal := by
  change (riskProgress ctx input basis reading).riskState.level < _ at hlt
  change (_ ∧ (riskProgress ctx input basis reading).riskState = _ ∨
    _ ∧ (riskProgress ctx input basis reading).riskState = _) ∧ _
  rcases riskProgress_cases ctx input basis reading with
    hkept | ⟨state, session, hstate, hsession, hnew, hgate, heligible, hrequired, hlowered⟩
  · rw [hkept, escalate_level, hprior] at hlt
    exact absurd (le_max_left _ _) hlt.not_ge
  · obtain rfl := Option.some.inj (hprior.symm.trans hstate)
    obtain ⟨named, hnamed, hclose, hforward⟩ := newClose_eq_true hnew
    obtain rfl := Option.some.inj (hsession.symm.trans hnamed)
    obtain ⟨total, cost, hevidence, -⟩ := h.passed.evidence
    obtain ⟨-, -, -, hpolicy⟩ := h.passed.continued hprior
    rw [hprior, Option.bind_some] at hforward
    rw [hlowered]
    refine ⟨?_, session.ordinal, ?_⟩
    · rcases (reached_le_recovered heligible).1 with hrisk | hrisk
      · exact .inl ⟨hrisk, by rw [hrisk]; rfl⟩
      · exact .inr ⟨hrisk, by rw [hrisk]; rfl⟩
    · exact {
        closed := ⟨basis.position, session, completeEvidence_position hevidence, hsession, rfl,
          hclose⟩
        forward := hforward
        gate := hgate
        required := hpolicy ▸ hrequired }

/-- A continued state keeps the latch of the retained one. -/
theorem latched (hprior : basis.prior = some prior) :
    Latched input prior (nextState ctx input basis reading) where
  peak := by
    have hpeak := drawdownReading_peak h.read
    rw [hprior] at hpeak
    change _ ≤ (ExactRatio.ofFraction reading.peak).fraction
    rw [ExactRatio.fraction_ofFraction]
    exact hpeak
  maximum := by
    change _ ≤ max (basis.prior.elim 0 (·.maximumDrawdown)) _
    rw [hprior]
    exact le_max_left _ _
  observed n hn := by
    change ∃ m ∈ (sessionReading input.command basis.prior basis.position).lastObserved, n ≤ m
    rw [hprior]
    exact le_lastObserved _ _ hn
  lowered := h.lowered hprior

end Observed

/-- The risk budget that is in force for a command. -/
def DrawdownInput.effectiveBudget (history : List DrawdownOutcome) (input : DrawdownInput) :
    Option PersonalRiskBudget :=
  input.namedCapital.map fun named =>
    (input.effectiveCapital (priorState history) named).proposal.riskBudget

/-- A state opens an epoch under an identity that no earlier state has. -/
structure Reauthorizes (e : HistoryStep DrawdownInput DrawdownOutcome) (state : DrawdownState) :
    Prop where
  accepted : e.outcome.disposition = .accepted
  operation : e.input.command.operation = .reauthorize
  unused : ∀ o ∈ e.before, ∀ fact, o.state = some fact → fact.epochId ≠ state.epochId

/-- What the latch grants of a state that a step leaves. -/
structure LatchStep (ctx : DecimalContext) (e : HistoryStep DrawdownInput DrawdownOutcome)
    (state : DrawdownState) : Prop where
  one_le_peak : 1 ≤ state.exactPeak.fraction
  reached : e.outcome.disposition = .accepted → ∃ budget basis reading,
    e.input.effectiveBudget e.before = some budget ∧
      observation ctx e.before e.input = some (basis, reading) ∧
      (reachedState budget.drawdown reading.intervalDrawdown).level ≤ state.riskState.level
  continued : ∀ prior, priorState e.before = some prior →
    prior.epochId = state.epochId ∧ Latched e.input prior state ∨ Reauthorizes e state
  blocked : state.riskState ≠ .normal ∨ state.epochStatus = .closed ∨
      (e.input.effectiveBudget e.before).any (·.expiresAt ≤ e.input.command.cutoffAt) = true ∨
      e.outcome.disposition = .unknown →
    state.newExposureBlocked = true

theorem Refused.continued (h : Refused history input outcome) (hstate : outcome.state = some state)
    (hprior : priorState history = some prior) :
    prior.epochId = state.epochId ∧ Latched input prior state ∨
      Reauthorizes ⟨history, input, outcome⟩ state := by
  rcases h.state with hnone | ⟨kept, hkept, hretained⟩
  · exact nomatch hnone.symm.trans hstate
  · obtain rfl := Option.some.inj (hretained.symm.trans hstate)
    obtain rfl := Option.some.inj (hkept.symm.trans hprior)
    exact .inl ⟨rfl, latched_retained ..⟩

theorem Refused.latchStep (h : Refused history input outcome)
    (hpeak : ∀ prior, priorState history = some prior → 1 ≤ prior.exactPeak.fraction)
    (hstate : outcome.state = some state) : LatchStep ctx ⟨history, input, outcome⟩ state := by
  rcases h.state with hnone | ⟨prior, hprior, hretained⟩
  · exact nomatch hnone.symm.trans hstate
  · obtain rfl := Option.some.inj (hretained.symm.trans hstate)
    constructor
    case one_le_peak => exact hpeak prior hprior
    case reached => exact fun haccepted => absurd haccepted h.disposition
    case blocked => exact fun _ => rfl
    case continued => exact fun _ => h.continued hstate

namespace Observed

variable {basis : DrawdownBasis} {reading : DrawdownReading}
  (h : Observed ctx history input basis reading)
include h

theorem effectiveBudget :
    input.effectiveBudget history = some basis.capital.proposal.riskBudget := by
  obtain ⟨named, hnamed, hcapital⟩ := h.passed.capital
  rw [DrawdownInput.effectiveBudget, hnamed, hcapital]
  rfl

theorem one_le_peak
    (hpeak : ∀ prior, priorState history = some prior → 1 ≤ prior.exactPeak.fraction) :
    1 ≤ (nextState ctx input basis reading).exactPeak.fraction := by
  change 1 ≤ (ExactRatio.ofFraction reading.peak).fraction
  rw [ExactRatio.fraction_ofFraction]
  refine le_trans ?_ (drawdownReading_peak h.read)
  cases hprior : basis.prior with
  | none => exact le_rfl
  | some prior => exact hpeak prior (h.passed.continued hprior).1

/-- An observation continues the retained epoch, or opens one that was never used. -/
theorem continued (hprior : priorState history = some prior) :
    prior.epochId = (nextState ctx input basis reading).epochId ∧
        Latched input prior (nextState ctx input basis reading) ∨
      Reauthorizes ⟨history, input, adjudicate ctx history input⟩
        (nextState ctx input basis reading) := by
  have hbasis := h.passed.prior
  split at hbasis
  · rename_i hop
    right
    obtain ⟨-, -, -, -, hunused⟩ := h.passed.reauthorized hop
    have hdenied : basis.closureDenied = false := by
      rw [← Bool.not_eq_true, h.passed.closureDenied, hop]
      exact fun hclose => nomatch hclose.1
    exact ⟨by rw [h.disposition, hdenied]; rfl, hop, hunused⟩
  · left
    rw [hprior] at hbasis
    exact ⟨(h.passed.continued hbasis).2.2.1.symm, h.latched hbasis⟩

theorem latchStep
    (hpeak : ∀ prior, priorState history = some prior → 1 ≤ prior.exactPeak.fraction) :
    LatchStep ctx ⟨history, input, adjudicate ctx history input⟩
      (nextState ctx input basis reading) where
  one_le_peak := h.one_le_peak hpeak
  reached _ := ⟨_, basis, reading, h.effectiveBudget, h.observed, reached_le_nextState ..⟩
  continued _ := h.continued
  blocked hblocked := by
    have hunknown : (adjudicate ctx history input).disposition ≠ .unknown := by
      rw [h.disposition]
      split <;> decide
    simp only [h.effectiveBudget, Option.any_some, decide_eq_true_eq] at hblocked
    rcases hblocked with hrisk | hclosed | hexpired | hdisposition
    · exact decide_eq_true (.inl hrisk)
    · exact decide_eq_true (.inr (.inl hclosed))
    · exact decide_eq_true (.inr (.inr (.inl hexpired)))
    · exact absurd hdisposition hunknown

end Observed

/-- The next state continues the retained epoch, or opens one that was never used. -/
theorem adjudicate_continued (hstate : (adjudicate ctx history input).state = some state)
    (hprior : priorState history = some prior) :
    prior.epochId = state.epochId ∧ Latched input prior state ∨
      Reauthorizes ⟨history, input, adjudicate ctx history input⟩ state := by
  rcases adjudicate_cases ctx history input with
    ⟨-, hrefused⟩ | ⟨basis, reading, hobserved⟩
  · exact hrefused.continued hstate hprior
  · obtain rfl := Option.some.inj (hobserved.state.symm.trans hstate)
    exact hobserved.continued hprior

theorem adjudicate_latchStep
    (hpeak : ∀ prior, priorState history = some prior → 1 ≤ prior.exactPeak.fraction)
    (hstate : (adjudicate ctx history input).state = some state) :
    LatchStep ctx ⟨history, input, adjudicate ctx history input⟩ state := by
  rcases adjudicate_cases ctx history input with
    ⟨-, hrefused⟩ | ⟨basis, reading, hobserved⟩
  · exact hrefused.latchStep hpeak hstate
  · obtain rfl := Option.some.inj (hobserved.state.symm.trans hstate)
    exact hobserved.latchStep hpeak

/-- What no later state of an epoch undoes. -/
structure KeepsLatch (state next : DrawdownState) : Prop where
  peak : state.exactPeak.fraction ≤ next.exactPeak.fraction
  maximum : state.maximumDrawdown ≤ next.maximumDrawdown
  observed : ∀ n ∈ state.lastObservedSession, ∃ m ∈ next.lastObservedSession, n ≤ m
  preservation : state.riskState = .preservation → next.riskState = .preservation

theorem KeepsLatch.refl (state : DrawdownState) : KeepsLatch state state :=
  ⟨le_rfl, le_rfl, fun n hn => ⟨n, hn, le_rfl⟩, id⟩

theorem KeepsLatch.trans {a b c : DrawdownState} (hab : KeepsLatch a b) (hbc : KeepsLatch b c) :
    KeepsLatch a c where
  peak := hab.peak.trans hbc.peak
  maximum := hab.maximum.trans hbc.maximum
  observed n hn := by
    obtain ⟨m, hm, hnm⟩ := hab.observed n hn
    obtain ⟨k, hk, hmk⟩ := hbc.observed m hm
    exact ⟨k, hk, hnm.trans hmk⟩
  preservation h := hbc.preservation (hab.preservation h)

theorem Latched.keepsLatch (h : Latched input prior state) : KeepsLatch prior state where
  peak := h.peak
  maximum := h.maximum
  observed := h.observed
  preservation hprior := by
    by_contra hstate
    have hlt : state.riskState.level < prior.riskState.level := by
      rw [hprior]
      cases hrisk : state.riskState with
      | preservation => exact absurd hrisk hstate
      | _ => decide
    rcases (h.lowered hlt).1 with ⟨hrisk, -⟩ | ⟨hrisk, -⟩ <;>
      exact nomatch hprior.symm.trans hrisk

theorem adjudicate_continues (hstate : (adjudicate ctx history input).state = some state) :
    HistoryRun.Continues DrawdownOutcome.state DrawdownState.epochId KeepsLatch history state := by
  cases hprior : priorState history with
  | none =>
    right
    intro o ho fact hfact
    exact nomatch (latest_eq_none.mp hprior o ho).symm.trans hfact
  | some prior =>
    rcases adjudicate_continued hstate hprior with ⟨hepoch, hlatched⟩ | hnew
    · exact .inl ⟨prior, hprior, hepoch, hlatched.keepsLatch⟩
    · exact .inr hnew.unused

/-- The run of a list of drawdown commands. -/
def drawdownRun (ctx : DecimalContext) (inputs : List DrawdownInput) :
    List (HistoryStep DrawdownInput DrawdownOutcome) :=
  trace (adjudicate ctx) inputs

theorem historyRun_drawdownRun (ctx : DecimalContext) (inputs : List DrawdownInput) :
    HistoryRun (fun history input outcome => adjudicate ctx history input = outcome)
      (drawdownRun ctx inputs) :=
  historyRun_trace (adjudicate ctx) inputs

/-- In every run of drawdown commands, every state has the latch, and no later state of its
epoch undoes it. -/
theorem drawdown_latch (ctx : DecimalContext) (inputs : List DrawdownInput) :
    (∀ e ∈ drawdownRun ctx inputs, ∀ state, e.outcome.state = some state →
      LatchStep ctx e state) ∧
    (drawdownRun ctx inputs).Pairwise fun e e' => ∀ state next,
      e.outcome.state = some state → e'.outcome.state = some next →
        state.epochId = next.epochId → KeepsLatch state next := by
  have hrun := historyRun_drawdownRun ctx inputs
  constructor
  · refine hrun.forall_mem fun {run input outcome} _ ih hstep state hstate => ?_
    subst hstep
    refine adjudicate_latchStep (fun prior hprior => ?_) hstate
    obtain ⟨o, ho, hprior⟩ := mem_of_latest hprior
    obtain ⟨e, he, rfl⟩ := List.mem_map.mp ho
    exact (ih e he prior hprior).one_le_peak
  · refine hrun.pairwise_latest DrawdownOutcome.state DrawdownState.epochId KeepsLatch
      .refl .trans ?_
    rintro history input - rfl next hnext
    exact adjudicate_continues hnext

end StockProfiler.Portfolio
