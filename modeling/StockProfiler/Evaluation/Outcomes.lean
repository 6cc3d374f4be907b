import StockProfiler.CandidateSelection.CandidateRelease
import StockProfiler.Core.Checks
import StockProfiler.Core.Decimal
import StockProfiler.Core.Dict
import StockProfiler.Evaluation.Contracts

/-!
# Standard outcomes

The entry of a standard quantity in the first buyable session, its terminal wealth six months
later, and the lineage of the evidence. An outcome that is known stays the same at later cutoffs,
as long as the evidence that it rests on does.
-/

namespace StockProfiler.Evaluation

open CandidateSelection (CoverageCalendar)
open Portfolio (MarketSession)

variable {terminal : Option TerminalEvidence}

/-- A calendar version with the last date for which its terminal sessions are known. -/
structure StandardCalendar extends CoverageCalendar where
  terminalSessionCoverageThrough : ℤ

/-- The last session on a date or before it, of the saved ones within their span. -/
def StandardCalendar.lastTerminalSessionOnOrBefore (calendar : StandardCalendar) (date : ℤ) :
    Option MarketSession :=
  let sessions := match calendar.sessions.head?, calendar.sessions.getLast? with
    | some first, some last =>
      if first.closedAt.utcDay ≤ date ∧ date ≤ last.closedAt.utcDay then calendar.sessions
      else calendar.extendedSessions
    | _, _ => calendar.extendedSessions
  (sessions.takeWhile (·.closedAt.utcDay ≤ date)).getLast?

/-- Resolve the six-month target to the last saved session close on or before its date. -/
def sixMonthTerminalEvaluationAt (calendar : StandardCalendar) (value : Instant) :
    Except String Instant := do
  let target := (addCalendarMonths 0 value 6).utcDay
  require (target ≤ calendar.terminalSessionCoverageThrough)
    "MARKET_CALENDAR_TERMINAL_SESSION_UNAVAILABLE"
  let session ← known (calendar.lastTerminalSessionOnOrBefore target)
    "MARKET_CALENDAR_TERMINAL_SESSION_UNAVAILABLE"
  return session.closedAt

/-- `population_counts`. -/
def populationCounts (members : List EvaluationMember) (cutoff : Instant) : PopulationCounts :=
  let due := members.countP (·.maturesAt ≤ cutoff)
  let missing := members.countP (·.state = .unavailable)
  { registered := members.length
    due
    evaluable := members.countP (·.state.isResolved)
    missing
    immature := members.length - due
    achieved := members.countP (·.state = .achieved)
    notAchieved := members.countP (·.state = .notAchieved)
    formalAdjudication := if missing ≠ 0 then .indeterminate else .evidenceComplete }

/-- The counts of a population add up. -/
structure PopulationCounts.Balanced (counts : PopulationCounts) : Prop where
  registered : counts.registered = counts.due + counts.immature
  due : counts.due = counts.evaluable + counts.missing

/-- A member is due when its state is no longer pending. -/
def EvaluationMember.Timely (member : EvaluationMember) (cutoff : Instant) : Prop :=
  member.maturesAt ≤ cutoff ↔ member.state ≠ .pending

theorem balanced_populationCounts {members : List EvaluationMember} {cutoff : Instant}
    (h : ∀ member ∈ members, member.Timely cutoff) :
    (populationCounts members cutoff).Balanced where
  registered := by
    have hle : members.countP (·.maturesAt ≤ cutoff) ≤ members.length := List.countP_le_length
    exact (Nat.add_sub_cancel' hle).symm
  due := by
    change members.countP _ = members.countP _ + members.countP _
    induction members with
    | nil => rfl
    | cons member members ih =>
      have hmember := h member (List.mem_cons_self ..)
      have ih := ih fun other hother => h other (List.mem_cons_of_mem _ hother)
      unfold EvaluationMember.Timely at hmember
      rw [List.countP_cons, List.countP_cons, List.countP_cons, ih]
      cases hstate : member.state <;> rw [hstate] at hmember <;>
        simp [EvaluationState.isResolved, hmember] <;> omega

/-- Quotients of wealth have 128 digits. -/
def wealthDecimals : DecimalContext := .ofPrecision 128 .halfEven (by decide)

/-- The wealth that buys a standard quantity at the average price of a session. -/
def entryWealth (quantity : ℚ) (session : EntrySession) (costs : TradingCosts) : ℚ :=
  quantity * session.turnover / session.volume + exactCosts costs

/-- What a standard quantity is worth in the end. -/
def terminalWealth (quantity : ℚ) (terminal : TerminalEvidence) : ℚ :=
  quantity * terminal.quantityMultiplier * terminal.price + terminal.cashDistributions -
    exactCosts terminal.costs

/-- The state and the net return of a bought quantity at a cutoff. -/
def terminalOutcome (maturity cutoff : Instant) (quantity wealth : ℚ)
    (terminal : Option TerminalEvidence) : Except String (EvaluationState × Option ℚ) :=
  if cutoff < maturity then .ok (.pending, none)
  else match terminal with
  | none => .ok (.unavailable, none)
  | some terminal =>
    if cutoff < terminal.availableAt then .ok (.unavailable, none)
    else if terminal.effectiveAt ≠ maturity ∨ terminal.actionsCompleteThrough ≠ maturity then
      .error "STANDARD_TERMINAL_HORIZON_INCOMPLETE"
    else
      let final := terminalWealth quantity terminal
      .ok (if wealth * (6 / 5) ≤ final then .achieved else .notAchieved,
        some (wealthDecimals.round (final / wealth - 1)))

section Evaluate

variable (calendar : StandardCalendar) (member : EvaluationMember)
  (observation : StandardObservation) (sessions : List Instant) (cutoff : Instant) (quantity : ℚ)

/-- A member that was bought in a session. -/
def evaluateBought (session : EntrySession) (costs : TradingCosts) :
    Except String EvaluationMember := do
  let maturity ← sixMonthTerminalEvaluationAt calendar session.closedAt
  let wealth := entryWealth quantity session costs
  let outcome ← terminalOutcome maturity cutoff quantity wealth observation.terminal
  return { member with
    entryAt := some session.closedAt
    entryPrice := some (wealthDecimals.round (wealth / quantity))
    maturesAt := maturity
    state := outcome.1
    netTotalReturn := outcome.2
    observation := some observation }

/-- A member that could not be bought in the sessions that are known. -/
def evaluateUnbought (entry : EntryEvidence) : EvaluationMember :=
  if entry.sessions.length ≠ 5 then { member with observation := some observation }
  else { member with
    entryExpired := true
    observation := some observation
    state := if member.maturesAt ≤ cutoff then .notAchieved else .pending }

/-- A member with entry evidence that the cutoff sees. -/
def evaluateEntry (entry : EntryEvidence) : Except String EvaluationMember := do
  require (entry.sessions.map (·.closedAt) = sessions.take entry.sessions.length)
    "STANDARD_FIRST_BUYABLE_SESSION_UNPROVEN"
  require (∀ last ∈ entry.sessions.getLast?, last.closedAt ≤ entry.effectiveAt)
    "STANDARD_ENTRY_EVIDENCE_INCOMPLETE"
  match entry.sessions.find? (·.buyable) with
  | none => return evaluateUnbought member observation cutoff entry
  | some session =>
    let costs ← known session.costs "AssertionError"
    evaluateBought calendar member observation cutoff quantity session costs

end Evaluate

/-- Compute terminal standard wealth only from complete, cutoff-visible market facts. -/
def evaluateMember (calendar : StandardCalendar) (member : EvaluationMember)
    (observation : Option StandardObservation) (sessions : List Instant) (cutoff : Instant)
    (quantity : ℚ) : Except String EvaluationMember :=
  match observation with
  | none => .ok { member with observation := none }
  | some observation =>
    match observation.entry with
    | none => .ok { member with observation := some observation }
    | some entry =>
      if cutoff < entry.availableAt then .ok member
      else evaluateEntry calendar member observation sessions cutoff quantity entry

/-- A member of which nothing is known yet. -/
def EvaluationMember.Awaiting (member : EvaluationMember) (cutoff : Instant) : Prop :=
  member.state = if member.maturesAt ≤ cutoff then .unavailable else .pending

/-- The registration that a member comes from. -/
def EvaluationMember.identity (member : EvaluationMember) :
    String × EvaluationPopulation × String × String :=
  (member.evaluationId, member.population, member.sourceEventId, member.securityId)

/-- What is reported of the outcome of a member. -/
structure MemberOutcome where
  state : EvaluationState
  entryAt : Option Instant
  entryPrice : Option ℚ
  maturesAt : Instant
  netTotalReturn : Option ℚ

/-- The outcome of a member. -/
def EvaluationMember.outcome (member : EvaluationMember) : MemberOutcome :=
  ⟨member.state, member.entryAt, member.entryPrice, member.maturesAt, member.netTotalReturn⟩

/-- An outcome is timely in the sense of its maturity. -/
theorem timely_of_terminalOutcome {maturity cutoff : Instant} {quantity wealth : ℚ}
    {outcome : EvaluationState × Option ℚ}
    (h : terminalOutcome maturity cutoff quantity wealth terminal = .ok outcome) :
    maturity ≤ cutoff ↔ outcome.1 ≠ .pending := by
  unfold terminalOutcome at h
  split at h
  · rename_i hlt
    cases h
    exact ⟨fun hle => absurd hle (not_le.mpr hlt), fun hne => absurd rfl hne⟩
  · rename_i hle
    have hle := not_lt.mp hle
    refine ⟨fun _ => ?_, fun _ => hle⟩
    cases terminal with
    | none =>
      cases h
      exact nofun
    | some terminal =>
      dsimp only at h
      split at h
      · cases h
        exact nofun
      · split at h
        · exact nomatch h
        · cases h
          dsimp only
          split <;> exact nofun

section Members

variable {calendar : StandardCalendar} {member result : EvaluationMember}
  {observation : StandardObservation} {sessions : List Instant} {cutoff : Instant} {quantity : ℚ}

theorem EvaluationMember.Awaiting.timely (h : member.Awaiting cutoff) : member.Timely cutoff := by
  unfold Timely
  rw [h]
  split
  · rename_i hle
    exact ⟨fun _ => nofun, fun _ => hle⟩
  · rename_i hlt
    exact ⟨fun hle => absurd hle hlt, fun hne => absurd rfl hne⟩

/-- What evaluation leaves of a member. -/
structure Evaluated (member result : EvaluationMember) (observation : StandardObservation)
    (cutoff : Instant) : Prop where
  identity : result.identity = member.identity
  timely : result.Timely cutoff
  observation : result.observation = some observation

theorem evaluated_of_evaluateBought {session : EntrySession} {costs : TradingCosts}
    (h : evaluateBought calendar member observation cutoff quantity session costs = .ok result) :
    Evaluated member result observation cutoff := by
  obtain ⟨maturity, -, h⟩ := bind_eq_ok.mp h
  obtain ⟨outcome, houtcome, h⟩ := bind_eq_ok.mp h
  cases h
  exact ⟨rfl, timely_of_terminalOutcome houtcome, rfl⟩

theorem evaluated_evaluateUnbought (hawaiting : member.Awaiting cutoff) (entry : EntryEvidence) :
    Evaluated member (evaluateUnbought member observation cutoff entry) observation cutoff := by
  unfold evaluateUnbought
  split
  · exact ⟨rfl, hawaiting.timely, rfl⟩
  · refine ⟨rfl, ?_, rfl⟩
    unfold EvaluationMember.Timely
    dsimp only
    by_cases hle : member.maturesAt ≤ cutoff
    · rw [if_pos hle]
      exact ⟨fun _ => nofun, fun _ => hle⟩
    · rw [if_neg hle]
      exact ⟨fun h => absurd h hle, fun h => absurd rfl h⟩

/-- A member whose entry the cutoff sees is evaluated. -/
theorem evaluated_of_evaluateMember (hawaiting : member.Awaiting cutoff)
    (havailable : ∀ entry ∈ observation.entry, entry.availableAt ≤ cutoff)
    (h : evaluateMember calendar member (some observation) sessions cutoff quantity = .ok result) :
    Evaluated member result observation cutoff := by
  unfold evaluateMember at h
  dsimp only at h
  split at h
  · cases h
    exact ⟨rfl, hawaiting.timely, rfl⟩
  · rename_i entry hentry
    rw [if_neg (not_lt.mpr (havailable entry hentry))] at h
    obtain ⟨_, -, h⟩ := bind_eq_ok.mp h
    obtain ⟨_, -, h⟩ := bind_eq_ok.mp h
    split at h
    · cases h
      exact evaluated_evaluateUnbought hawaiting entry
    · obtain ⟨costs, -, h⟩ := bind_eq_ok.mp h
      exact evaluated_of_evaluateBought h

/-- An outcome of a bought quantity is the same at every later cutoff. -/
theorem terminalOutcome_of_resolved {maturity later : Instant} {wealth : ℚ}
    {outcome : EvaluationState × Option ℚ}
    (h : terminalOutcome maturity cutoff quantity wealth terminal = .ok outcome)
    (hresolved : outcome.1.isResolved = true) (hle : cutoff ≤ later) :
    terminal.isSome ∧ terminalOutcome maturity later quantity wealth terminal = .ok outcome := by
  unfold terminalOutcome at h
  split at h
  · cases h
    exact nomatch hresolved
  · rename_i hmature
    cases terminal with
    | none =>
      cases h
      exact nomatch hresolved
    | some terminal =>
      dsimp only at h
      split at h
      · cases h
        exact nomatch hresolved
      · rename_i havailable
        refine ⟨rfl, ?_⟩
        unfold terminalOutcome
        rw [if_neg (not_lt.mpr ((not_lt.mp hmature).trans hle))]
        dsimp only
        rw [if_neg (not_lt.mpr ((not_lt.mp havailable).trans hle))]
        exact h

/-- Evidence that keeps what an outcome rests on: the entry, and the terminal if there is one. -/
structure StandardObservation.Keeps (observation next : StandardObservation) : Prop where
  entry : next.entry = observation.entry
  terminal : ∀ terminal, observation.terminal = some terminal → next.terminal = some terminal

/-- A resolved member keeps its outcome at every later cutoff, on the same evidence. -/
theorem outcome_of_resolved {other result' : EvaluationMember} {next : StandardObservation}
    {later : Instant} (hawaiting : member.Awaiting cutoff)
    (hother : other.maturesAt = member.maturesAt ∧ other.entryAt = member.entryAt ∧
      other.entryPrice = member.entryPrice ∧ other.netTotalReturn = member.netTotalReturn)
    (h : evaluateMember calendar member (some observation) sessions cutoff quantity = .ok result)
    (hresolved : result.state.isResolved = true) (hle : cutoff ≤ later)
    (hkeeps : observation.Keeps next)
    (h' : evaluateMember calendar other (some next) sessions later quantity = .ok result') :
    result'.outcome = result.outcome := by
  obtain ⟨hmatures, hentryAt, hprice, hreturn⟩ := hother
  have hunresolved : member.state.isResolved = false := by
    rw [hawaiting]
    split <;> rfl
  unfold evaluateMember at h h'
  dsimp only at h h'
  rw [hkeeps.entry] at h'
  cases hentry : observation.entry with
  | none =>
    rw [hentry] at h
    cases h
    exact absurd (hresolved.symm.trans hunresolved) nofun
  | some entry =>
    rw [hentry] at h h'
    dsimp only at h h'
    split at h
    · cases h
      exact absurd (hresolved.symm.trans hunresolved) nofun
    · rename_i havailable
      rw [if_neg (not_lt.mpr ((not_lt.mp havailable).trans hle))] at h'
      obtain ⟨_, -, h⟩ := bind_eq_ok.mp h
      obtain ⟨_, -, h⟩ := bind_eq_ok.mp h
      obtain ⟨_, -, h'⟩ := bind_eq_ok.mp h'
      obtain ⟨_, -, h'⟩ := bind_eq_ok.mp h'
      cases hbuyable : entry.sessions.find? (·.buyable) with
      | none =>
        rw [hbuyable] at h h'
        cases h
        cases h'
        unfold evaluateUnbought at hresolved ⊢
        split at hresolved
        · exact absurd (hresolved.symm.trans hunresolved) nofun
        · rename_i hlength
          rw [if_neg hlength, if_neg hlength]
          dsimp only at hresolved
          split at hresolved
          · rename_i hmature
            unfold EvaluationMember.outcome
            dsimp only
            rw [hmatures, hentryAt, hprice, hreturn, if_pos (hmature.trans hle), if_pos hmature]
          · exact nomatch hresolved
      | some session =>
        rw [hbuyable] at h h'
        obtain ⟨costs, hcosts, h⟩ := bind_eq_ok.mp h
        obtain ⟨costs', hcosts', h'⟩ := bind_eq_ok.mp h'
        obtain rfl := Except.ok.inj (hcosts.symm.trans hcosts')
        obtain ⟨maturity, hmaturity, h⟩ := bind_eq_ok.mp h
        obtain ⟨outcome, houtcome, h⟩ := bind_eq_ok.mp h
        obtain ⟨maturity', hmaturity', h'⟩ := bind_eq_ok.mp h'
        obtain ⟨outcome', houtcome', h'⟩ := bind_eq_ok.mp h'
        obtain rfl := Except.ok.inj (hmaturity.symm.trans hmaturity')
        cases h
        cases h'
        obtain ⟨hterminal, hsame⟩ := terminalOutcome_of_resolved houtcome hresolved hle
        obtain ⟨terminal, hterminal⟩ := Option.isSome_iff_exists.mp hterminal
        rw [hkeeps.terminal terminal hterminal, ← hterminal, hsame] at houtcome'
        cases houtcome'
        rfl

end Members

/-- `validate_evidence_revision`. -/
def validateEvidenceRevision (incoming : MarketEvidence) (prior : Option MarketEvidence)
    (evidenceById : Dict String MarketEvidence) (cutoff : Instant) : Except String Unit := do
  require (incoming.fact.availableAt ≤ cutoff) "STANDARD_EVIDENCE_NOT_AVAILABLE_AT_CUTOFF"
  require (∀ retained ∈ evidenceById.get? incoming.fact.evidenceId, retained = incoming)
    "STANDARD_EVIDENCE_IDENTITY_REDEFINED"
  match prior with
  | none =>
    require (incoming.fact.correctsEvidenceId = none) "STANDARD_CORRECTION_SOURCE_UNAVAILABLE"
  | some prior =>
    require (incoming = prior ∨
      incoming.fact.correctsEvidenceId = some prior.fact.evidenceId ∧
        incoming.fact.evidenceId ≠ prior.fact.evidenceId ∧
        prior.fact.availableAt ≤ incoming.fact.availableAt)
      "STANDARD_AUTHORITATIVE_CORRECTION_REQUIRED"

end StockProfiler.Evaluation
