import StockProfiler.Core.Streak
import StockProfiler.Portfolio.DrawdownLatch

/-!
# Sessions of recovery and cooling

A count of recovery or cooling sessions stands for a streak of consecutive
closes that the run observed. Within one epoch no close is observed anew twice.
-/

namespace StockProfiler.Portfolio

open PositionManagement

variable {session : MarketSession} {fact : DrawdownState} {state : DrawdownState}
  {ctx : DecimalContext} {history : List DrawdownOutcome} {input : DrawdownInput}

/-- One step of a run of drawdown commands. -/
abbrev DrawdownStep := HistoryStep DrawdownInput DrawdownOutcome

/-- The retained risk level is not raised, and its recovery conditions hold. -/
def meetsRecovery (ctx : DecimalContext) (input : DrawdownInput) (basis : DrawdownBasis)
    (reading : DrawdownReading) : Bool :=
  let thresholds := basis.capital.proposal.riskBudget.drawdown
  basis.prior.any fun prior =>
    escalate thresholds prior.riskState reading.intervalDrawdown = prior.riskState ∧
      gateClear input.command ∧
      !(sessionReading input.command basis.prior basis.position).invalidPeriod ∧
      recoveryEligible input.command.policy thresholds prior.riskState reading basis.equity
        (stockExposure ctx basis.position)

/-- The session whose close is observed for the first time. -/
def newSession (input : DrawdownInput) (basis : DrawdownBasis) : Option MarketSession :=
  (namedSession input.command).filter fun _ =>
    (sessionReading input.command basis.prior basis.position).newClose

/-- The session that counts towards recovery. -/
def recoverySession (ctx : DecimalContext) (input : DrawdownInput) (basis : DrawdownBasis)
    (reading : DrawdownReading) : Option MarketSession :=
  (newSession input basis).filter fun _ => meetsRecovery ctx input basis reading

/-- The session that counts towards the cooling of a closed epoch. -/
def cooledSession (input : DrawdownInput) (basis : DrawdownBasis) : Option MarketSession :=
  (newSession input basis).filter fun session =>
    fullyReconciledZero basis.position ∧ gateClear input.command ∧
      basis.prior.any fun prior =>
        prior.epochStatus = .closed ∧ coolingSession basis.position prior.closedAt session

/-- The ordinal that a step counts towards recovery. -/
def recoveryOrdinal (ctx : DecimalContext) (e : DrawdownStep) : Option ℤ :=
  (observation ctx e.before e.input).bind fun (basis, reading) =>
    (recoverySession ctx e.input basis reading).map (·.ordinal)

/-- The ordinal that a step counts towards cooling. -/
def coolingOrdinal (ctx : DecimalContext) (e : DrawdownStep) : Option ℤ :=
  (observation ctx e.before e.input).bind fun (basis, _) =>
    (cooledSession e.input basis).map (·.ordinal)

/-- A step that may stand in a count of recovery sessions: when it leaves a state, it is an
eligible observation of the same level and epoch. -/
structure Recovers (ctx : DecimalContext) (fact : DrawdownState) (e : DrawdownStep) : Prop where
  known : e.outcome.disposition ≠ .unknown
  observed : ∀ state, e.outcome.state = some state → ∃ basis reading,
    observation ctx e.before e.input = some (basis, reading) ∧
      state.epochId = fact.epochId ∧ state.riskState = fact.riskState ∧
      meetsRecovery ctx e.input basis reading = true
  closes : ∀ n, recoveryOrdinal ctx e = some n → ObservedClose e.input n

/-- A step that may stand in a count of cooling sessions: when it leaves a state, it observes a
zero book in the same closed epoch. -/
structure Cools (ctx : DecimalContext) (fact : DrawdownState) (e : DrawdownStep) : Prop where
  known : e.outcome.disposition ≠ .unknown
  observed : ∀ state, e.outcome.state = some state → ∃ basis reading,
    observation ctx e.before e.input = some (basis, reading) ∧
      state.epochId = fact.epochId ∧ state.epochStatus = .closed ∧
      state.closedAt = fact.closedAt ∧
      fullyReconciledZero basis.position = true ∧ gateClear e.input.command = true ∧
      (sessionReading e.input.command basis.prior basis.position).invalidPeriod = false
  closes : ∀ n, coolingOrdinal ctx e = some n → ObservedClose e.input n ∧
    ∃ position session, e.input.position = some position ∧
      namedSession e.input.command = some session ∧ session.ordinal = n ∧
      coolingSession position fact.closedAt session = true

/-- An observation sees no stock event that the retained state has not seen. -/
def NoNewStockEvents (ctx : DecimalContext) (e : DrawdownStep) : Prop :=
  ∀ basis reading, observation ctx e.before e.input = some (basis, reading) →
    newStockEvents basis.prior basis.position = []

section Step

variable {basis : DrawdownBasis} {reading : DrawdownReading}

/-- A count of recovery sessions is kept, or counts the session of the step. -/
theorem riskProgress_counts (hpos : 0 < (riskProgress ctx input basis reading).count) :
    ∃ prior, basis.prior = some prior ∧ meetsRecovery ctx input basis reading = true ∧
      (riskProgress ctx input basis reading).riskState = prior.riskState ∧
      ((recoverySession ctx input basis reading = none ∧
          (riskProgress ctx input basis reading).count = prior.recoverySessions ∧
          (riskProgress ctx input basis reading).lastSession = prior.lastRecoverySession) ∨
        ∃ session, recoverySession ctx input basis reading = some session ∧
          (riskProgress ctx input basis reading).lastSession = some session.ordinal ∧
          (riskProgress ctx input basis reading).count =
            nextCount prior.recoverySessions prior.lastRecoverySession session.ordinal) := by
  cases hprior : basis.prior with
  | none =>
    rw [riskProgress, hprior] at hpos
    exact absurd hpos (lt_irrefl 0)
  | some prior =>
    refine ⟨prior, rfl, ?_⟩
    rw [riskProgress, hprior] at hpos ⊢
    dsimp only [recovery, Option.elim] at hpos ⊢
    split at hpos
    · rename_i hclear
      obtain ⟨hrisk, hgate, hvalid, heligible⟩ := hclear
      have hmeets : meetsRecovery ctx input basis reading = true := by
        rw [hrisk] at heligible
        rw [meetsRecovery, hprior]
        exact decide_eq_true ⟨hrisk, hgate, hvalid, heligible⟩
      have hsession : recoverySession ctx input basis reading =
          (sessionReading input.command (some prior) basis.position).session.filter fun _ =>
            (sessionReading input.command (some prior) basis.position).newClose := by
        simp only [recoverySession, hmeets, newSession, hprior, Option.filter_filter, Bool.and_true]
        rfl
      rw [if_pos ⟨hrisk, hgate, hvalid, heligible⟩, hsession]
      refine ⟨hmeets, ?_⟩
      split at hpos
      · rename_i hnone
        rw [hnone]
        exact ⟨hrisk, .inl ⟨rfl, rfl, rfl⟩⟩
      · rename_i session hsome
        rw [hsome]
        split at hpos
        · exact absurd hpos (lt_irrefl 0)
        · rename_i hrequired
          simp only [if_neg hrequired]
          exact ⟨hrisk, .inr ⟨session, rfl, rfl, rfl⟩⟩
    · exact absurd hpos (lt_irrefl 0)

/-- Only an open epoch has a count of recovery sessions. -/
theorem epochProgress_counts {sessions : SessionReading} {recovery : RecoveryProgress}
    (hpos : 0 < (epochProgress input.command basis sessions recovery).count) :
    (epochProgress input.command basis sessions recovery).count = recovery.count ∧
      (epochProgress input.command basis sessions recovery).lastSession =
        recovery.lastSession := by
  unfold epochProgress at hpos ⊢
  split at hpos
  · exact absurd hpos (lt_irrefl 0)
  · rename_i hclose
    rw [if_neg hclose]
    split at hpos
    · exact ⟨rfl, rfl⟩
    · split at hpos
      · rename_i hopen
        simp only [if_pos hopen, and_self]
      · dsimp only at hpos
        split at hpos
        · exact absurd hpos (lt_irrefl 0)
        · split at hpos <;> exact absurd hpos (lt_irrefl 0)

/-- What a closed epoch keeps while it cools. -/
structure Cooling (input : DrawdownInput) (basis : DrawdownBasis) (prior : DrawdownState)
    (epoch : EpochProgress) : Prop where
  continued : basis.prior = some prior
  closed : prior.epochStatus = .closed
  status : epoch.status = .closed
  closedAt : epoch.closedAt = prior.closedAt
  zero : fullyReconciledZero basis.position = true
  gate : gateClear input.command = true
  valid : (sessionReading input.command basis.prior basis.position).invalidPeriod = false
  counts : (cooledSession input basis = none ∧ newStockEvents basis.prior basis.position = [] ∧
      epoch.cooling = prior.coolingSessions ∧ epoch.lastSession = prior.lastRecoverySession) ∨
    ∃ session, cooledSession input basis = some session ∧
      epoch.lastSession = some session.ordinal ∧
      epoch.cooling = if newStockEvents basis.prior basis.position = [] then
        nextCount prior.coolingSessions prior.lastRecoverySession session.ordinal else 1

/-- The session that cools a closed epoch, as the epoch reads it. -/
theorem cooledSession_eq (input : DrawdownInput) {prior : DrawdownState}
    (hprior : basis.prior = some prior) (hclosed : prior.epochStatus = .closed) :
    cooledSession input basis =
      (sessionReading input.command basis.prior basis.position).session.filter fun session =>
        (fullyReconciledZero basis.position = true ∧
          (sessionReading input.command basis.prior basis.position).gateClear = true) ∧
          (sessionReading input.command basis.prior basis.position).newClose = true ∧
          coolingSession basis.position prior.closedAt session = true := by
  rw [cooledSession, newSession, Option.filter_filter]
  congr 1
  funext session
  simp only [hprior, Option.any_some, hclosed, Bool.decide_eq_true, Bool.decide_and]
  simp only [sessionReading]
  ac_rfl

theorem invalidPeriod_of_newClose {command : DrawdownCommand} {prior : Option DrawdownState}
    {position : PositionReconciliationOutcome}
    (h : (sessionReading command prior position).newClose = true) :
    (sessionReading command prior position).invalidPeriod = false := by
  obtain ⟨session, hsession, hclose, -⟩ := newClose_eq_true h
  simp [sessionReading, hsession, hclose]

/-- A count of cooling sessions is kept, or counts the session of the step. -/
theorem epochProgress_cools {recovery : RecoveryProgress}
    (hpos : 0 < (epochProgress input.command basis
      (sessionReading input.command basis.prior basis.position) recovery).cooling) :
    ∃ prior, Cooling input basis prior (epochProgress input.command basis
      (sessionReading input.command basis.prior basis.position) recovery) := by
  generalize hepoch : epochProgress input.command basis
    (sessionReading input.command basis.prior basis.position) recovery = epoch at hpos
  unfold epochProgress at hepoch
  split at hepoch
  · subst hepoch
    exact absurd hpos (lt_irrefl 0)
  · split at hepoch
    · subst hepoch
      exact absurd hpos (lt_irrefl 0)
    · rename_i prior hprior
      split at hepoch
      · subst hepoch
        exact absurd hpos (lt_irrefl 0)
      · rename_i hopen
        have hclosed : prior.epochStatus = .closed := by
          cases h : prior.epochStatus with
          | «open» => exact absurd h hopen
          | closed => rfl
        have hcooled := cooledSession_eq input hprior hclosed
        dsimp only at hepoch
        split at hepoch
        · rename_i session hsession
          have hcooled := hcooled.trans hsession
          obtain ⟨-, hcounted⟩ := Option.filter_eq_some_iff.mp hsession
          obtain ⟨⟨hzero, hgate⟩, hnew, -⟩ := of_decide_eq_true hcounted
          subst hepoch
          refine ⟨prior, hprior, hclosed, rfl, rfl, hzero, hgate, invalidPeriod_of_newClose hnew,
            .inr ⟨session, hcooled, rfl, ?_⟩⟩
          rw [hprior]
        · rename_i hsession
          have hcooled := hcooled.trans hsession
          split at hepoch
          · rename_i hkept
            obtain ⟨⟨hzero, hgate⟩, hunchanged, hvalid⟩ := hkept
            subst hepoch
            refine ⟨prior, hprior, hclosed, rfl, rfl, hzero, hgate, by simpa using hvalid,
              .inl ⟨hcooled, ?_, rfl, rfl⟩⟩
            rw [hprior]
            exact hunchanged
          · subst hepoch
            exact absurd hpos (lt_irrefl 0)

theorem nextCount_cases (count : ℕ) (last : Option ℤ) (ordinal : ℤ) :
    nextCount count last ordinal = 1 ∨
      last = some (ordinal - 1) ∧ nextCount count last ordinal = count + 1 := by
  unfold nextCount
  split
  · rename_i hlast
    exact .inr ⟨hlast, rfl⟩
  · exact .inl rfl

/-- The session that is newly observed is at its close, after all observed ones. -/
theorem DrawdownBasis.Passed.newSession_closes (h : basis.Passed ctx history input)
    (hsession : newSession input basis = some session) :
    namedSession input.command = some session ∧ ObservedClose input session.ordinal ∧
      (basis.prior.bind (·.lastObservedSession)).all (· < session.ordinal) = true := by
  obtain ⟨hnamed, hnew⟩ := Option.filter_eq_some_iff.mp hsession
  obtain ⟨total, cost, hevidence, -⟩ := h.evidence
  obtain ⟨observed, hobserved, hclose, hforward⟩ := newClose_eq_true hnew
  obtain rfl := Option.some.inj (hnamed.symm.trans hobserved)
  have hposition := completeEvidence_position hevidence
  exact ⟨hnamed, ⟨basis.position, session, hposition, hnamed, rfl, hclose⟩, hforward⟩

end Step

/-- The counter of recovery sessions. -/
def recoveryCounter : Counter DrawdownState := ⟨(·.recoverySessions), (·.lastRecoverySession)⟩

/-- The counter of cooling sessions. -/
def coolingCounter : Counter DrawdownState := ⟨(·.coolingSessions), (·.lastRecoverySession)⟩

theorem Recovers.congr {fact' : DrawdownState} {e : DrawdownStep} (h : Recovers ctx fact e)
    (hepoch : fact.epochId = fact'.epochId) (hrisk : fact.riskState = fact'.riskState) :
    Recovers ctx fact' e where
  known := h.known
  observed state hstate := by
    obtain ⟨basis, reading, hobserved, hstateEpoch, hstateRisk, hmeets⟩ := h.observed state hstate
    exact ⟨basis, reading, hobserved, hstateEpoch.trans hepoch, hstateRisk.trans hrisk, hmeets⟩
  closes := h.closes

theorem Cools.congr {fact' : DrawdownState} {e : DrawdownStep} (h : Cools ctx fact e)
    (hepoch : fact.epochId = fact'.epochId) (hclosedAt : fact.closedAt = fact'.closedAt) :
    Cools ctx fact' e where
  known := h.known
  observed state hstate := by
    obtain ⟨basis, reading, hobserved, hstateEpoch, hstatus, hstateClosed, hrest⟩ :=
      h.observed state hstate
    exact ⟨basis, reading, hobserved, hstateEpoch.trans hepoch, hstatus,
      hstateClosed.trans hclosedAt, hrest⟩
  closes n hn := hclosedAt ▸ h.closes n hn

namespace Observed

variable {basis : DrawdownBasis} {reading : DrawdownReading}
  (h : Observed ctx history input basis reading)
include h

theorem known : (adjudicate ctx history input).disposition ≠ .unknown := by
  rw [h.disposition]
  split <;> decide

/-- What holds of the observation holds of any reading of the step. -/
theorem of_observation {basis' : DrawdownBasis} {reading' : DrawdownReading}
    (hobserved : observation ctx history input = some (basis', reading')) :
    basis' = basis ∧ reading' = reading :=
  Prod.mk.inj (Option.some.inj (hobserved.symm.trans h.observed))

theorem recoveryOrdinal_eq :
    recoveryOrdinal ctx ⟨history, input, adjudicate ctx history input⟩ =
      (recoverySession ctx input basis reading).map (·.ordinal) := by
  rw [recoveryOrdinal, h.observed]
  rfl

theorem coolingOrdinal_eq :
    coolingOrdinal ctx ⟨history, input, adjudicate ctx history input⟩ =
      (cooledSession input basis).map (·.ordinal) := by
  rw [coolingOrdinal, h.observed]
  rfl

/-- An observation that leaves a count of recovery sessions may stand in it. -/
theorem recovers (hpos : 0 < (nextState ctx input basis reading).recoverySessions) :
    Recovers ctx (nextState ctx input basis reading)
      ⟨history, input, adjudicate ctx history input⟩ where
  known := h.known
  observed state hstate := by
    obtain rfl := Option.some.inj (h.state.symm.trans hstate)
    obtain ⟨hcount, -⟩ := epochProgress_counts hpos
    obtain ⟨prior, -, hmeets, -⟩ := riskProgress_counts (hpos.trans_eq hcount)
    exact ⟨basis, reading, h.observed, rfl, rfl, hmeets⟩
  closes n hn := by
    rw [h.recoveryOrdinal_eq] at hn
    obtain ⟨session, hsession, rfl⟩ := Option.map_eq_some_iff.mp hn
    exact (h.passed.newSession_closes (Option.filter_eq_some_iff.mp hsession).1).2.1

/-- A positive recovery count counts the sessions that recover, in order. -/
theorem recovery_counts (hpos : 0 < (nextState ctx input basis reading).recoverySessions) :
    recoveryCounter.Counts (Recovers ctx) (fun _ => True) (recoveryOrdinal ctx)
      DrawdownOutcome.state ⟨history, input, adjudicate ctx history input⟩
      (nextState ctx input basis reading) := by
  obtain ⟨hcount, hlast⟩ := epochProgress_counts hpos
  obtain ⟨prior, hprior, -, hrisk, hsession⟩ := riskProgress_counts (hpos.trans_eq hcount)
  obtain ⟨hlatest, -, hepoch, -⟩ := h.passed.continued hprior
  have hfits : ∀ x, Recovers ctx prior x → Recovers ctx (nextState ctx input basis reading) x :=
    fun x hx => hx.congr hepoch.symm hrisk.symm
  have hmark := h.recoveryOrdinal_eq
  rcases hsession with ⟨hnone, hkept, hlastKept⟩ | ⟨session, hsome, hlastCounted, hcounted⟩
  · rw [hnone] at hmark
    exact .keep prior hlatest hfits trivial hmark (hcount.trans hkept) (hlast.trans hlastKept)
  · rw [hsome] at hmark
    rcases nextCount_cases prior.recoverySessions prior.lastRecoverySession session.ordinal with
      hone | ⟨hprevious, hnext⟩
    · exact .start session.ordinal hmark (hcount.trans (hcounted.trans hone))
        (hlast.trans hlastCounted)
    · refine .extend (session.ordinal - 1) prior hlatest hfits trivial ?_
        (hcount.trans (hcounted.trans hnext)) ?_ hprevious
      · rw [sub_add_cancel]
        exact hmark
      · rw [sub_add_cancel]
        exact hlast.trans hlastCounted

/-- An observation that leaves a count of cooling sessions may stand in it. -/
theorem cools (hpos : 0 < (nextState ctx input basis reading).coolingSessions) :
    Cools ctx (nextState ctx input basis reading)
      ⟨history, input, adjudicate ctx history input⟩ := by
  obtain ⟨prior, hcooling⟩ := epochProgress_cools hpos
  constructor
  case known => exact h.known
  case observed =>
    intro state hstate
    obtain rfl := Option.some.inj (h.state.symm.trans hstate)
    exact ⟨basis, reading, h.observed, rfl, hcooling.status, rfl, hcooling.zero, hcooling.gate,
      hcooling.valid⟩
  case closes =>
    intro n hn
    rw [h.coolingOrdinal_eq] at hn
    obtain ⟨session, hsession, rfl⟩ := Option.map_eq_some_iff.mp hn
    obtain ⟨hnew, hcounted⟩ := Option.filter_eq_some_iff.mp hsession
    obtain ⟨hnamed, hclose, -⟩ := h.passed.newSession_closes hnew
    obtain ⟨total, cost, hevidence, -⟩ := h.passed.evidence
    obtain ⟨-, -, hcool⟩ := of_decide_eq_true hcounted
    rw [hcooling.continued, Option.any_some] at hcool
    refine ⟨hclose, basis.position, session, completeEvidence_position hevidence, hnamed, rfl, ?_⟩
    have hclosedAt : (nextState ctx input basis reading).closedAt = prior.closedAt :=
      hcooling.closedAt
    rw [hclosedAt]
    exact (of_decide_eq_true hcool).2

/-- A positive cooling count counts the sessions that cool, in order. -/
theorem cooling_counts (hpos : 0 < (nextState ctx input basis reading).coolingSessions) :
    coolingCounter.Counts (Cools ctx) (NoNewStockEvents ctx) (coolingOrdinal ctx)
      DrawdownOutcome.state ⟨history, input, adjudicate ctx history input⟩
      (nextState ctx input basis reading) := by
  obtain ⟨prior, hcooling⟩ := epochProgress_cools hpos
  obtain ⟨hlatest, -, hepoch, -⟩ := h.passed.continued hcooling.continued
  have hfits : ∀ x, Cools ctx prior x → Cools ctx (nextState ctx input basis reading) x :=
    fun x hx => hx.congr hepoch.symm hcooling.closedAt.symm
  have hcalm : newStockEvents basis.prior basis.position = [] →
      NoNewStockEvents ctx ⟨history, input, adjudicate ctx history input⟩ := by
    intro hunchanged basis' reading' hobserved
    obtain ⟨rfl, -⟩ := h.of_observation hobserved
    exact hunchanged
  have hmark := h.coolingOrdinal_eq
  rcases hcooling.counts with ⟨hnone, hunchanged, hkept, hlast⟩ | ⟨session, hsome, hlast, hcounted⟩
  · rw [hnone] at hmark
    exact .keep prior hlatest hfits (hcalm hunchanged) hmark hkept hlast
  · rw [hsome] at hmark
    split at hcounted
    · rename_i hunchanged
      rcases nextCount_cases prior.coolingSessions prior.lastRecoverySession session.ordinal with
        hone | ⟨hprevious, hnext⟩
      · exact .start session.ordinal hmark (hcounted.trans hone) hlast
      · refine .extend (session.ordinal - 1) prior hlatest hfits (hcalm hunchanged) ?_
          (hcounted.trans hnext) ?_ hprevious
        · rw [sub_add_cancel]
          exact hmark
        · rw [sub_add_cancel]
          exact hlast
    · exact .start session.ordinal hmark hcounted hlast

end Observed

theorem Refused.resets {outcome : DrawdownOutcome} (h : Refused history input outcome)
    (hstate : outcome.state = some state) :
    state.recoverySessions = 0 ∧ state.coolingSessions = 0 := by
  rcases h.state with hnone | ⟨prior, -, hretained⟩
  · exact nomatch hnone.symm.trans hstate
  · obtain rfl := Option.some.inj (hretained.symm.trans hstate)
    exact ⟨rfl, rfl⟩

/-- A step without a state is a denial that observes nothing. -/
theorem adjudicate_idle (hlatest : priorState history = some fact)
    (hstate : (adjudicate ctx history input).state = none) :
    observation ctx history input = none ∧
      (adjudicate ctx history input).disposition ≠ .unknown := by
  rcases adjudicate_cases ctx history input with ⟨hnone, hrefused⟩ | ⟨basis, reading, hobserved⟩
  · refine ⟨hnone, fun hunknown => ?_⟩
    have hretained := hrefused.unknown hunknown
    rw [hlatest, hstate] at hretained
    exact nomatch hretained
  · exact nomatch hobserved.state.symm.trans hstate

section Run

variable (ctx : DecimalContext) (inputs : List DrawdownInput)

/-- A count of recovery sessions is a streak of eligible closes. -/
theorem recovery_streak (hstate : priorState (outcomes (drawdownRun ctx inputs)) = some state)
    (hpos : 0 < state.recoverySessions) :
    ∃ last, state.lastRecoverySession = some last ∧
      Streak (Recovers ctx state) (fun _ => True) (recoveryOrdinal ctx) (drawdownRun ctx inputs)
        state.recoverySessions last := by
  refine (historyRun_drawdownRun ctx inputs).streak recoveryCounter (Recovers ctx) (fun _ => True)
    (recoveryOrdinal ctx) DrawdownOutcome.state ?_ ?_ hstate hpos
  · rintro history input - rfl hnone fact hfact
    obtain ⟨hobserved, hknown⟩ := adjudicate_idle hfact hnone
    have hmark : recoveryOrdinal ctx ⟨history, input, adjudicate ctx history input⟩ = none := by
      rw [recoveryOrdinal, hobserved]
      rfl
    refine ⟨⟨hknown, fun state hstate => ?_, fun n hn => ?_⟩, trivial, hmark⟩
    · exact nomatch hnone.symm.trans hstate
    · exact nomatch hmark.symm.trans hn
  · rintro history input - rfl next hnext hpos
    rcases adjudicate_cases ctx history input with ⟨-, hrefused⟩ | ⟨basis, reading, hobserved⟩
    · exact absurd hpos (hrefused.resets hnext).1.not_gt
    · obtain rfl := Option.some.inj (hobserved.state.symm.trans hnext)
      exact ⟨hobserved.recovers hpos, hobserved.recovery_counts hpos⟩

/-- A count of cooling sessions is a streak of closes of a zero book. -/
theorem cooling_streak (hstate : priorState (outcomes (drawdownRun ctx inputs)) = some state)
    (hpos : 0 < state.coolingSessions) :
    ∃ last, state.lastRecoverySession = some last ∧
      Streak (Cools ctx state) (NoNewStockEvents ctx) (coolingOrdinal ctx)
        (drawdownRun ctx inputs) state.coolingSessions last := by
  refine (historyRun_drawdownRun ctx inputs).streak coolingCounter (Cools ctx)
    (NoNewStockEvents ctx) (coolingOrdinal ctx) DrawdownOutcome.state ?_ ?_ hstate hpos
  · rintro history input - rfl hnone fact hfact
    obtain ⟨hobserved, hknown⟩ := adjudicate_idle hfact hnone
    have hmark : coolingOrdinal ctx ⟨history, input, adjudicate ctx history input⟩ = none := by
      rw [coolingOrdinal, hobserved]
      rfl
    refine ⟨⟨hknown, fun state hstate => ?_, fun n hn => ?_⟩, fun basis reading hread => ?_, hmark⟩
    · exact nomatch hnone.symm.trans hstate
    · exact nomatch hmark.symm.trans hn
    · exact nomatch hobserved.symm.trans hread
  · rintro history input - rfl next hnext hpos
    rcases adjudicate_cases ctx history input with ⟨-, hrefused⟩ | ⟨basis, reading, hobserved⟩
    · exact absurd hpos (hrefused.resets hnext).2.not_gt
    · obtain rfl := Option.some.inj (hobserved.state.symm.trans hnext)
      exact ⟨hobserved.cools hpos, hobserved.cooling_counts hpos⟩

/-- A step counts an ordinal towards recovery or towards cooling. -/
def Counted (ctx : DecimalContext) (e : DrawdownStep) (n : ℤ) : Prop :=
  recoveryOrdinal ctx e = some n ∨ coolingOrdinal ctx e = some n

/-- An ordinal that is counted is the new session of an observation. -/
theorem Counted.newSession {ctx : DecimalContext} {history : List DrawdownOutcome}
    {input : DrawdownInput} {n : ℤ}
    (h : Counted ctx ⟨history, input, adjudicate ctx history input⟩ n) :
    ∃ basis reading session, Observed ctx history input basis reading ∧
      newSession input basis = some session ∧ session.ordinal = n := by
  rcases adjudicate_cases ctx history input with ⟨hnone, -⟩ | ⟨basis, reading, hobserved⟩
  · simp only [Counted, recoveryOrdinal, coolingOrdinal, hnone, Option.bind_none, reduceCtorEq,
      or_self] at h
  · rw [Counted, hobserved.recoveryOrdinal_eq, hobserved.coolingOrdinal_eq] at h
    rcases h with h | h
    · obtain ⟨session, hsession, hordinal⟩ := Option.map_eq_some_iff.mp h
      obtain ⟨hnew, -⟩ := Option.filter_eq_some_iff.mp hsession
      exact ⟨basis, reading, session, hobserved, hnew, hordinal⟩
    · obtain ⟨session, hsession, hordinal⟩ := Option.map_eq_some_iff.mp h
      obtain ⟨hnew, -⟩ := Option.filter_eq_some_iff.mp hsession
      exact ⟨basis, reading, session, hobserved, hnew, hordinal⟩

/-- A newly observed session is the last one that the state has observed. -/
theorem lastObserved_of_newSession {input : DrawdownInput} {basis : DrawdownBasis}
    (h : newSession input basis = some session) :
    (sessionReading input.command basis.prior basis.position).lastObserved =
      some session.ordinal := by
  obtain ⟨hnamed, hnew⟩ := Option.filter_eq_some_iff.mp h
  obtain ⟨observed, hobserved, hclose, hforward⟩ := newClose_eq_true hnew
  obtain rfl := Option.some.inj (hnamed.symm.trans hobserved)
  simp only [sessionReading, hnamed, Option.any_some, hclose, if_true, Option.map_some]
  cases hlast : basis.prior.bind (·.lastObservedSession) with
  | none => simp
  | some last =>
    rw [hlast, Option.all_some, decide_eq_true_eq] at hforward
    rw [Option.getD_some, max_eq_right hforward.le]

/-- An ordinal that is counted is the last one observed, after all that its epoch observed. -/
theorem Counted.observed {ctx : DecimalContext} {history : List DrawdownOutcome}
    {input : DrawdownInput} {n : ℤ}
    (h : Counted ctx ⟨history, input, adjudicate ctx history input⟩ n)
    (hstate : (adjudicate ctx history input).state = some state) :
    state.lastObservedSession = some n ∧
      ∀ prior, priorState history = some prior → prior.epochId = state.epochId →
        ∀ m ∈ prior.lastObservedSession, m < n := by
  obtain ⟨basis, reading, session, hobserved, hsession, rfl⟩ := h.newSession
  obtain rfl := Option.some.inj (hobserved.state.symm.trans hstate)
  refine ⟨lastObserved_of_newSession hsession, fun prior hprior hepoch m hm => ?_⟩
  obtain ⟨-, -, hforward⟩ := hobserved.passed.newSession_closes hsession
  have hbasis := hobserved.passed.prior
  split at hbasis
  · rename_i hop
    obtain ⟨-, -, -, -, hunused⟩ := hobserved.passed.reauthorized hop
    obtain ⟨o, ho, hfact⟩ := mem_of_latest hprior
    exact absurd hepoch (hunused o ho prior hfact)
  · rw [hbasis, hprior, Option.bind_some, Option.mem_def.mp hm] at hforward
    exact of_decide_eq_true hforward

/-- Within an epoch every ordinal that is counted is greater than those counted before. -/
theorem counted_pairwise :
    (drawdownRun ctx inputs).Pairwise fun e e' => ∀ state next,
      e.outcome.state = some state → e'.outcome.state = some next →
        state.epochId = next.epochId → ∀ n m, Counted ctx e n → Counted ctx e' m → n < m := by
  refine (historyRun_drawdownRun ctx inputs).pairwise ?_
  rintro run input - hrun - rfl e he state next hstate hnext hepoch n m hn hm
  obtain ⟨before, earlier, outcome⟩ := e
  obtain rfl : adjudicate ctx before earlier = outcome := hrun.step_of_mem he
  obtain ⟨hlast, -⟩ := hn.observed hstate
  obtain ⟨-, hafter⟩ := hm.observed hnext
  rcases adjudicate_continues hnext with ⟨prior, hprior, hpriorEpoch, -⟩ | hunused
  · have hkeeps := hrun.related_latest DrawdownOutcome.state DrawdownState.epochId KeepsLatch
      .refl .trans (by rintro history input - rfl next hnext; exact adjudicate_continues hnext)
      he hstate hprior (hepoch.trans hpriorEpoch.symm)
    obtain ⟨k, hk, hnk⟩ := hkeeps.observed n hlast
    exact hnk.trans_lt (hafter prior hprior hpriorEpoch k hk)
  · exact absurd hepoch (hunused _ (List.mem_map_of_mem he) state hstate)

end Run

/-- What an accepted reauthorization rests on. -/
structure CooledReauthorization (history : List DrawdownOutcome) (input : DrawdownInput)
    (prior : DrawdownState) (position : PositionReconciliationOutcome) : Prop where
  retained : priorState history = some prior
  closed : prior.epochStatus = .closed
  cooled : prior.policy.coolingSessions ≤ prior.coolingSessions
  evidenced : input.position = some position
  zero : fullyReconciledZero position = true
  unchanged : ∀ key ∈ stockEvents position, key ∈ prior.processedStockEvents

/-- A reauthorization is accepted after a full cooling of a closed epoch only. -/
theorem accepted_reauthorization (hop : input.command.operation = .reauthorize)
    (haccepted : (adjudicate ctx history input).disposition = .accepted) :
    ∃ prior position, CooledReauthorization history input prior position := by
  rcases adjudicate_cases ctx history input with ⟨-, hrefused⟩ | ⟨basis, reading, hobserved⟩
  · exact absurd haccepted hrefused.disposition
  · obtain ⟨prior, hprior, hclosed, hcooled, -⟩ := hobserved.passed.reauthorized hop
    obtain ⟨hzero, hunchanged⟩ := hobserved.passed.reconciled hop
    obtain ⟨total, cost, hevidence, -⟩ := hobserved.passed.evidence
    refine ⟨prior, basis.position, hprior, hclosed, hcooled, completeEvidence_position hevidence,
      hzero, fun key hkey => ?_⟩
    rw [hprior] at hunchanged
    simpa using List.filter_eq_nil_iff.mp hunchanged key hkey

/-- What the session counts of a run stand for. -/
structure SessionCounts (ctx : DecimalContext) (run : List DrawdownStep) : Prop where
  recovery : ∀ state, priorState (outcomes run) = some state → 0 < state.recoverySessions →
    ∃ last, state.lastRecoverySession = some last ∧
      Streak (Recovers ctx state) (fun _ => True) (recoveryOrdinal ctx) run
        state.recoverySessions last
  cooling : ∀ state, priorState (outcomes run) = some state → 0 < state.coolingSessions →
    ∃ last, state.lastRecoverySession = some last ∧
      Streak (Cools ctx state) (NoNewStockEvents ctx) (coolingOrdinal ctx) run
        state.coolingSessions last
  once : run.Pairwise fun e e' => ∀ state next, e.outcome.state = some state →
    e'.outcome.state = some next → state.epochId = next.epochId →
      ∀ n m, Counted ctx e n → Counted ctx e' m → n < m
  reauthorized : ∀ e ∈ run, e.input.command.operation = .reauthorize →
    e.outcome.disposition = .accepted →
      ∃ prior position, CooledReauthorization e.before e.input prior position

/-- In every run the session counts stand for streaks of closes, an epoch counts no session
twice, and a reauthorization follows a full cooling. -/
theorem drawdownRun_sessionCounts (ctx : DecimalContext) (inputs : List DrawdownInput) :
    SessionCounts ctx (drawdownRun ctx inputs) where
  recovery _ := recovery_streak ctx inputs
  cooling _ := cooling_streak ctx inputs
  once := counted_pairwise ctx inputs
  reauthorized e he hop haccepted := by
    have hstep : adjudicate ctx e.before e.input = e.outcome :=
      (historyRun_drawdownRun ctx inputs).step_of_mem he
    exact accepted_reauthorization hop (hstep ▸ haccepted)

namespace SampleEpochs

def hourOf (day hour : ℤ) : Instant := closeOn ⟨2042, 5, day⟩ hour

variable (effectiveAt : Instant)

def evidence (cutoffAt : Instant) : PositionEvidence :=
  { SampleBroker.evidence effectiveAt with
    cutoffAt := some cutoffAt
    completeThroughAt := some cutoffAt }

def position (cutoffAt : Instant) (equity : ℚ) : PositionReconciliationOutcome :=
  let evidence := evidence effectiveAt cutoffAt
  { disposition := .reconciled
    reasons := []
    conflicts := []
    snapshot :=
      SampleBroker.snapshot evidence cutoffAt equity [SampleBroker.cash evidence equity equity] [] }

def snapshot (cutoffAt : Instant) : PortfolioSnapshot :=
  SampleProposals.snapshot "sample" cutoffAt

/-- A risk budget that escalates at five, ten and twenty percent. -/
def budget : PersonalRiskBudget :=
  SampleProposals.budget "B" "P" effectiveAt

/-- An authorization that is confirmed half an hour after its snapshot. -/
def authorization (authorizationId : String) (effectiveAt confirmedAt : Instant) :
    PortfolioAuthorizationOutcome where
  disposition := .approved
  reasons := []
  authorization := some
    { authorizationId := authorizationId
      proposal :=
        { portfolioId := "P"
          snapshot := snapshot effectiveAt
          riskBudget := budget effectiveAt
          effectiveAt_eq := rfl
          target_mem := fun _ h => absurd h List.not_mem_nil }
      confirmation := { confirmationId := authorizationId, confirmedAt := confirmedAt } }

/-- One session recovers from caution, and one cools a closed epoch. -/
def policy : DrawdownPolicy where
  versionId := "D"
  defensiveExposureRatio := 1 / 2
  cautionRecoveryRatio := 1 / 50
  defensiveRecoveryRatio := 1 / 50
  cautionRecoverySessions := 1
  defensiveRecoverySessions := 1
  coolingSessions := 1
  marketCalendarVersionId := "synthetic-capital-calendar-v1"
  defensiveExposureRatio_mem := Literal.half_mem
  cautionRecoveryRatio_mem := by decide +kernel
  defensiveRecoveryRatio_mem := by decide +kernel
  cautionRecoverySessions_pos := Nat.one_pos
  defensiveRecoverySessions_pos := Nat.one_pos
  coolingSessions_pos := Nat.one_pos

def onPosition (operation : DrawdownOperation) (authorizationId epochId : String)
    (previousDecisionId : Option String) (eventId : String) (effectiveAt cutoffAt : Instant)
    (equity : ℚ) : DrawdownInput where
  command :=
    { operation := operation
      portfolioId := "P"
      authorizationId := authorizationId
      epochId := epochId
      previousDecisionId := previousDecisionId
      cutoffAt := cutoffAt
      valuation := ⟨eventId, some 0, evidence effectiveAt cutoffAt, by decide +kernel⟩
      policy := policy }
  eventId := eventId
  accountIds := ["A"]
  authorizations :=
    authorization "K1" (hourOf 20 9) (hourOf 20 10) :: if epochId = "E2" then
      [authorization "K2" (hourOf 26 15) (hourOf 26 16)] else []
  position := some (position effectiveAt cutoffAt equity)
  businessPrerequisiteMet := true
  beforePositions := []

/-- An observation at the close of the session on the 26th, with no other gate active. -/
def closeInput (authorizationId epochId previousDecisionId eventId : String) (cutoffAt : Instant)
    (equity : ℚ) : DrawdownInput :=
  let observe := onPosition .observe authorizationId epochId (some previousDecisionId) eventId
    (hourOf 26 15) cutoffAt equity
  { observe with
    command :=
      { observe.command with
        marketSessionOrdinal := some 7105
        otherRiskGate := some ⟨false, evidence (hourOf 26 15) cutoffAt⟩ } }

/-- A loss, a closure and one close; then a new epoch, a loss and the same close. -/
def inputs : List DrawdownInput :=
  let reauthorize := onPosition .reauthorize "K2" "E2" (some "4") "5" (hourOf 26 16)
    (hourOf 26 16) 100
  [onPosition .open "K1" "E1" none "1" (hourOf 20 12) (hourOf 20 12) 100,
    onPosition .observe "K1" "E1" (some "1") "2" (hourOf 21 12) (hourOf 21 12) 94,
    onPosition .close "K1" "E1" (some "2") "3" (hourOf 22 12) (hourOf 22 12) 94,
    closeInput "K1" "E1" "3" "4" (hourOf 26 15) 99,
    { reauthorize with
      command :=
        { reauthorize.command with reauthorization := some ⟨"K2", "E1", "E2", hourOf 26 16⟩ } },
    onPosition .observe "K2" "E2" (some "5") "6" (hourOf 26 17) (hourOf 26 17) 94,
    closeInput "K2" "E2" "6" "7" (hourOf 26 18) 99]

def decimals : DecimalContext := .ofPrecision 50 .halfEven (by decide)

/-- What each step of the run counts towards recovery, and the risk state that it leaves. -/
def recoveries : List (Option ℤ × Option RiskState) :=
  (drawdownRun decimals inputs).map fun e =>
    (recoveryOrdinal decimals e, e.outcome.state.map (·.riskState))

end SampleEpochs

/-- One close lowers the risk state of two epochs, so across epochs an ordinal is counted
twice. -/
theorem sample_session_counted_twice :
    SampleEpochs.recoveries =
      [(none, some .normal), (none, some .caution), (none, some .caution),
        (some 7105, some .normal), (none, some .normal), (none, some .caution),
        (some 7105, some .normal)] ∧
    ¬(drawdownRun SampleEpochs.decimals SampleEpochs.inputs).Pairwise fun e e' =>
      ∀ n, recoveryOrdinal SampleEpochs.decimals e = some n →
        recoveryOrdinal SampleEpochs.decimals e' ≠ some n := by
  have hrecoveries : SampleEpochs.recoveries =
      [(none, some .normal), (none, some .caution), (none, some .caution),
        (some 7105, some .normal), (none, some .normal), (none, some .caution),
        (some 7105, some .normal)] := by decide +kernel
  refine ⟨hrecoveries, fun honce => ?_⟩
  have hpairs : SampleEpochs.recoveries.Pairwise fun x y => ∀ n, x.1 = some n → y.1 ≠ some n :=
    List.pairwise_map.mpr honce
  rw [hrecoveries] at hpairs
  simp at hpairs

end StockProfiler.Portfolio
