import StockProfiler.CandidateSelection.ReleaseContracts
import StockProfiler.Portfolio.MarketCalendar
import Mathlib.Algebra.Order.Field.Rat

/-!
# Candidate publication

A batch is frozen for the five sessions after its knowledge cutoff, and is confirmed again
at every later clock at which it is committed or published.
-/

namespace StockProfiler.CandidateSelection

open Portfolio (MarketSession)

/-- The sessions of one calendar version: the saved ones, and those that extend them. -/
structure CoverageCalendar where
  sessions : List MarketSession
  terminalSessions : List MarketSession

/-- The length of a session. -/
def sessionLength : ℤ := 25200000000

namespace CoverageCalendar

variable (c : CoverageCalendar)

/-- The sessions that extend the saved ones, if there are any. -/
def extendedSessions : List MarketSession :=
  if c.terminalSessions = [] then c.sessions else c.terminalSessions

/-- The saved sessions, with the ones that extend them on both sides. -/
def coveredSessions : List MarketSession :=
  match c.sessions.head?, c.sessions.getLast? with
  | some first, some last =>
    c.extendedSessions.takeWhile (·.closedAt.utcDay < first.closedAt.utcDay) ++ c.sessions ++
      c.extendedSessions.dropWhile (·.closedAt.utcDay ≤ last.closedAt.utcDay)
  | _, _ => c.terminalSessions

/-- The next sessions across the coverage. -/
def sessionsAfterOpen (value : Instant) (count : ℕ) : List MarketSession :=
  if ∃ first ∈ c.extendedSessions.head?, value.utcDay < first.closedAt.utcDay then []
  else (c.coveredSessions.dropWhile (·.closedAt ≤ value + sessionLength)).take count

/-- The latest completed session, of the saved ones within their span. -/
def sessionAtOrBefore (value : Instant) : Option MarketSession :=
  match c.sessions.head?, c.sessions.getLast? with
  | some first, some last =>
    if first.closedAt.utcDay ≤ value.utcDay ∧ value.utcDay ≤ last.closedAt.utcDay then
      (c.sessions.takeWhile (·.closedAt ≤ value)).getLast? <|>
        (c.terminalSessions.takeWhile fun session =>
          session.closedAt ≤ value ∧ session.closedAt.utcDay < first.closedAt.utcDay).getLast?
    else (c.extendedSessions.takeWhile (·.closedAt ≤ value)).getLast?
  | _, _ => (c.extendedSessions.takeWhile (·.closedAt ≤ value)).getLast?

end CoverageCalendar

/-- The first five sessions that open after the knowledge cutoff. -/
def candidateWindow (command : CandidateReleaseCommand) : List ReleaseSession :=
  (command.marketSessions.filter (command.knowledgeCutoff < ·.opensAt)).take 5

/-- Whether a session is one of a calendar. -/
def matchesSaved (session : ReleaseSession) (saved : MarketSession) : Bool :=
  session.marketDate = saved.closedAt.utcDay ∧ session.opensAt = saved.closedAt - sessionLength ∧
    session.closesAt = saved.closedAt

section Window

variable (calendars : String → Option CoverageCalendar) (command : CandidateReleaseCommand)

/-- Why the window of a batch is not the one of its calendar. -/
def candidateWindowError : Option String :=
  let window := candidateWindow command
  if window.length ≠ 5 then some "CANDIDATE_WINDOW_CALENDAR_INCOMPLETE"
  else match calendars command.marketCalendarVersion with
  | none => some "CANDIDATE_WINDOW_CALENDAR_SNAPSHOT_MISMATCH"
  | some calendar =>
    let saved := calendar.sessionsAfterOpen command.knowledgeCutoff 5
    if saved.length ≠ 5 then some "CANDIDATE_WINDOW_CALENDAR_SNAPSHOT_MISMATCH"
    else if (window.zip saved).any fun pair => !matchesSaved pair.1 pair.2 then
      some "CANDIDATE_WINDOW_CALENDAR_SNAPSHOT_MISMATCH"
    else if (window.zip saved).any fun pair => pair.1.sessionSequence ≠ pair.2.ordinal then
      some "CANDIDATE_WINDOW_CALENDAR_SEQUENCE_INVALID"
    else
      let lastCompleted : Option ℤ := match calendar.sessionAtOrBefore command.knowledgeCutoff with
        | some session => some session.ordinal
        | none => saved.head?.map (·.ordinal - 1)
      if lastCompleted ≠ some command.lastCompletedMarketSessionSequence then
        some "CANDIDATE_WINDOW_CALENDAR_SEQUENCE_INVALID"
      else none

theorem length_candidateWindow (h : candidateWindowError calendars command = none) :
    (candidateWindow command).length = 5 := by
  unfold candidateWindowError at h
  dsimp only at h
  split at h
  · exact nomatch h
  · rename_i hlength
    exact not_not.mp hlength

theorem candidateWindowError_congr {other : CandidateReleaseCommand}
    (hsessions : other.marketSessions = command.marketSessions)
    (hcutoff : other.knowledgeCutoff = command.knowledgeCutoff)
    (hcalendar : other.marketCalendarVersion = command.marketCalendarVersion)
    (hsequence : other.lastCompletedMarketSessionSequence =
      command.lastCompletedMarketSessionSequence) :
    candidateWindowError calendars other = candidateWindowError calendars command := by
  unfold candidateWindowError candidateWindow
  rw [hsessions, hcutoff, hcalendar, hsequence]

end Window

/-- A clock is after the last session of a complete window. -/
def missesWindow (command : CandidateReleaseCommand) (t : Instant) : Bool :=
  (candidateWindow command).length = 5 ∧ (candidateWindow command).getLast?.any (·.closesAt < t)

/-- The first snapshot for the market state, the version and the calendar of a batch that a clock
sees. -/
def matchingQualification (command : CandidateReleaseCommand) (observedAt : Instant) :
    Option MarketStateQualification :=
  command.qualifications.find? fun item =>
    item.marketState = command.marketState ∧ item.capabilityVersion = command.capabilityVersion ∧
      item.marketCalendarVersion = command.marketCalendarVersion ∧
      item.recordedAt ≤ command.knowledgeCutoff ∧
      item.currentStatusRecordedAt.getD item.recordedAt ≤ observedAt

/-- What members are told about a qualification. -/
def qualificationExplanationStatus (qualification : Option MarketStateQualification)
    (observedAt : Instant) : CandidateQualificationExplanationStatus :=
  match qualification with
  | none => .notQualified
  | some qualification =>
    if qualification.status.isActive = false ∨ qualification.validThrough < observedAt then
      .notQualified
    else if qualification.status = .atRisk then .atRisk
    else .valid

/-- Tell every member about a qualification, and withdraw candidates without one. -/
def membersWithQualificationStatus (members : List CalibratedMember)
    (status : CandidateQualificationExplanationStatus) (additionalReasons : List String) :
    List CalibratedMember :=
  members.map fun member =>
    let kept := member.reasons.filter fun reason => reason ∉ ["ALL_CANDIDATE_GATES_PASSED",
      "MARKET_STATE_NOT_QUALIFIED", "MARKET_STATE_QUALIFICATION_AT_RISK"]
    let told := match status with
      | .atRisk => kept ++ ["MARKET_STATE_QUALIFICATION_AT_RISK"]
      | .notQualified => kept ++ ["MARKET_STATE_NOT_QUALIFIED"]
      | .valid => kept
    let reasons := (told ++ additionalReasons).eraseDups
    { member with
      candidate := member.candidate && status ≠ .notQualified
      marketStateQualified := status ≠ .notQualified
      marketStateQualificationStatus := status
      reasons := if reasons = [] then ["ALL_CANDIDATE_GATES_PASSED"] else reasons }

/-- Remove candidate eligibility while retaining the score and other evidence. -/
def excludeCandidateMembers (members : List CalibratedMember) (reasons : List String) :
    List CalibratedMember :=
  members.map fun member =>
    { member with
      candidate := false
      reasons := (member.reasons.filter (· ≠ "ALL_CANDIDATE_GATES_PASSED") ++ reasons).eraseDups }

section Freeze

variable (calendars : String → Option CoverageCalendar) (command : CandidateReleaseCommand)

/-- The members of a batch without probabilities. -/
def unavailableMembers (validMarketDates : List ℤ) (reasons : List String) :
    List CalibratedMember :=
  let qualification := matchingQualification command command.publishedAt
  let status := qualificationExplanationStatus qualification command.publishedAt
  command.candidates.map fun candidate =>
    { securityId := candidate.securityId
      researchId := candidate.researchId
      rawSuccessScore := candidate.rawSuccessScore
      calibratedProbability := none
      candidate := false
      riskStatus := candidate.riskStatus
      marketStateQualified := qualification.any fun item =>
        item.status.isActive ∧ command.publishedAt ≤ item.validThrough
      marketStateQualificationStatus := status
      dataComplete := candidate.dataComplete
      validMarketDates
      reasons := (reasons ++ ["PROBABILITY_UNAVAILABLE"]).eraseDups }

/-- The outcome of a command, with its own members unless some are given. -/
def releaseOutcome (validMarketDates : List ℤ) (disposition : CandidateReleaseDisposition)
    (reasons : List String) (members : Option (List CalibratedMember))
    (availabilityFailure : Option CandidateAvailabilityFailure) : CandidateReleaseOutcome where
  batchId := command.batchId
  disposition
  knowledgeCutoff := command.knowledgeCutoff
  publishedAt := command.publishedAt
  capabilityVersion := command.capabilityVersion
  researchObjectId := command.researchObjectId
  researchEventId := command.researchEventId
  marketCalendarVersion := command.marketCalendarVersion
  marketState := command.marketState
  qualification := matchingQualification command command.publishedAt
  members := members.getD (unavailableMembers command validMarketDates reasons)
  population :=
    { validMonthly := disposition.isReleasable
      recommendationCoverageDenominator := disposition.isReleasable
      recommendationCoveragePass := disposition = .candidates
      availabilityFailure }
  validMarketDates
  reasons
  availabilityFailure

/-- What the calibrator says: a probability for each score, where it can be computed. -/
abbrev Calibration := Except String (ℚ → Option ℚ)

/-- A probability from which a candidate is recommended. -/
def probabilityThreshold : ℚ := 4 / 5

/-- A member of known probability. -/
def calibratedMember (qualification : Option MarketStateQualification)
    (status : CandidateQualificationExplanationStatus) (validMarketDates : List ℤ)
    (candidate : CandidateInput) (probability : ℚ) : CalibratedMember :=
  let qualified : Bool := status ≠ .notQualified
  let reasons :=
    (if probability < probabilityThreshold then ["PROBABILITY_BELOW_THRESHOLD"] else []) ++
    (if qualified = false then ["MARKET_STATE_NOT_QUALIFIED"]
      else if qualification.any (·.status = .atRisk) then ["MARKET_STATE_QUALIFICATION_AT_RISK"]
      else []) ++
    (match candidate.riskStatus with
      | .accepted => []
      | .rejected => ["INDEPENDENT_RISK_VETO"]
      | .failed => ["INDEPENDENT_RISK_UNAVAILABLE"])
  { securityId := candidate.securityId
    researchId := candidate.researchId
    rawSuccessScore := candidate.rawSuccessScore
    calibratedProbability := some probability
    candidate := probabilityThreshold ≤ probability ∧ qualified ∧ candidate.riskStatus = .accepted
    riskStatus := candidate.riskStatus
    marketStateQualified := qualified
    marketStateQualificationStatus := status
    dataComplete := candidate.dataComplete
    validMarketDates
    reasons := if reasons = [] then ["ALL_CANDIDATE_GATES_PASSED"] else reasons }

/-- The disposition of a batch whose members are complete. -/
def batchDisposition (members : List CalibratedMember) (qualified : Bool) :
    CandidateReleaseDisposition :=
  if members.any (·.candidate) then .candidates
  else if qualified = false then .recommendationAbstained
  else .validNoCandidates

variable (publishedAt : Instant)

/-- Calibrate each frozen member, combine independent gates, and fix the only window. -/
def freezeCandidateRelease (calibration : Calibration) : CandidateReleaseOutcome :=
  let command := { command with publishedAt }
  let window := candidateWindow command
  let dates := window.map (·.marketDate)
  let failure := fun reason source => releaseOutcome command dates .failed [reason] none source
  match candidateWindowError calendars command with
  | some error => failure error (some .data)
  | none =>
    if publishedAt < command.knowledgeCutoff then
      failure "CANDIDATE_KNOWLEDGE_CUTOFF_AFTER_PUBLICATION" (some .data)
    else if command.calibratorVersion ≠ "monotone-firth-logistic-v1" then
      failure "CANDIDATE_CALIBRATOR_VERSION_UNSUPPORTED" (some .calibration)
    else if command.candidates.any (·.dataComplete = false) then
      failure "CANDIDATE_DATA_INCOMPLETE" (some .data)
    else
      let qualification := (matchingQualification command publishedAt).filter
        (publishedAt ≤ ·.validThrough)
      let status := qualificationExplanationStatus qualification publishedAt
      match calibration with
      | .error reason => failure reason (some .calibration)
      | .ok probability =>
        match command.candidates.mapM fun candidate => (probability candidate.rawSuccessScore).map
            (calibratedMember qualification status dates candidate) with
        | none => failure "CALIBRATION_PROBABILITY_FAILED" (some .calibration)
        | some members =>
          if command.candidates.any (·.riskStatus = .failed) then
            releaseOutcome command dates .failed ["INDEPENDENT_RISK_UNAVAILABLE"]
              (some (members.map fun member =>
                { member with
                  candidate := false
                  reasons :=
                    (member.reasons ++ ["CANDIDATE_BATCH_AVAILABILITY_FAILED"]).eraseDups }))
              (some .system)
          else
            let disposition := batchDisposition members (status ≠ .notQualified)
            if window.getLast?.any (·.closesAt < publishedAt) then
              let late := "PUBLICATION_AFTER_CANDIDATE_WINDOW"
              releaseOutcome command dates .failed [late]
                (some (excludeCandidateMembers members [late])) none
            else
              releaseOutcome command dates disposition
                (if disposition = .candidates then [] else [disposition.name]) (some members) none

/-- Freeze a non-actionable availability result when host-side checks fail. -/
def candidateReleaseAvailabilityFailure (reason : String)
    (availabilityFailure : CandidateAvailabilityFailure) (includeMemberDetails : Bool) :
    CandidateReleaseOutcome :=
  let command := { command with publishedAt }
  let dates := (candidateWindow command).map (·.marketDate)
  let members := if includeMemberDetails then none else some []
  match candidateWindowError calendars command with
  | some error => releaseOutcome command dates .failed [error] members (some .data)
  | none => releaseOutcome command dates .failed [reason] members (some availabilityFailure)

/-- Record that an unsuccessful earlier business outcome prevented release. -/
def candidateReleaseBlocked (reason : String) (includeMemberDetails : Bool) :
    CandidateReleaseOutcome :=
  let command := { command with publishedAt }
  releaseOutcome command ((candidateWindow command).map (·.marketDate)) .blocked [reason]
    (if includeMemberDetails then none else some []) none

/-- Only a batch with a complete window is frozen as releasable. -/
theorem candidateWindowError_of_freeze {publishedAt : Instant} {calibration : Calibration}
    (h : (freezeCandidateRelease calendars command publishedAt
      calibration).disposition.isReleasable) : candidateWindowError calendars command = none := by
  unfold freezeCandidateRelease at h
  dsimp only at h
  split at h
  · exact nomatch h
  · rename_i hwindow
    exact hwindow

end Freeze

/-- Confirm a frozen outcome at a later clock: a late batch fails, and one without current
qualification abstains. -/
def finalizeCandidateReleasePublication (command : CandidateReleaseCommand)
    (outcome : CandidateReleaseOutcome) (publishedAt : Instant) : CandidateReleaseOutcome :=
  let matching := matchingQualification command publishedAt
  let preserve : Bool := outcome.publishedAt = publishedAt ∧
    (outcome.disposition = .recommendationAbstained ∨ matching = none ∨
      outcome.qualification.isSome ∧ matching = outcome.qualification)
  let qualification := if preserve then outcome.qualification else matching
  let published := { outcome with publishedAt, qualification }
  if outcome.disposition.isReleasable ∧ missesWindow command publishedAt then
    let late := "PUBLICATION_AFTER_CANDIDATE_WINDOW"
    { published with
      disposition := .failed
      members := excludeCandidateMembers outcome.members [late]
      population :=
        { outcome.population with
          validMonthly := false
          recommendationCoverageDenominator := false
          recommendationCoveragePass := false }
      reasons := [late] }
  else if outcome.disposition.isReleasable = false ∨
      outcome.disposition = .recommendationAbstained then published
  else if qualification.any fun item =>
      item.status.isActive ∧ publishedAt ≤ item.validThrough then
    { published with
      members := membersWithQualificationStatus published.members
        (qualificationExplanationStatus qualification publishedAt) [] }
  else
    let expired := if qualification.any (·.validThrough < publishedAt) then
      ["MARKET_STATE_QUALIFICATION_EXPIRED"] else []
    { published with
      disposition := .recommendationAbstained
      members := membersWithQualificationStatus published.members .notQualified expired
      population := { published.population with recommendationCoveragePass := false }
      reasons := "MARKET_STATE_NOT_QUALIFIED" :: expired }

/-- What a confirmation may change without changing the batch. -/
def sameBatch (confirmed outcome : CandidateReleaseOutcome) : Bool :=
  { confirmed with
    publishedAt := outcome.publishedAt, qualification := outcome.qualification } = outcome

section Finalize

variable {command : CandidateReleaseCommand} {outcome : CandidateReleaseOutcome}
  {publishedAt : Instant}

/-- A confirmation that leaves a batch releasable is of a releasable batch within its window. -/
theorem isReleasable_of_finalize (h : (finalizeCandidateReleasePublication command outcome
      publishedAt).disposition.isReleasable) :
    outcome.disposition.isReleasable ∧ missesWindow command publishedAt = false := by
  unfold finalizeCandidateReleasePublication at h
  dsimp only at h
  by_cases hreleasable : outcome.disposition.isReleasable
  · by_cases hlate : missesWindow command publishedAt
    · rw [if_pos ⟨hreleasable, hlate⟩] at h
      exact nomatch h
    · exact ⟨hreleasable, eq_false_of_ne_true hlate⟩
  · rw [if_neg (fun hboth => hreleasable hboth.1),
      if_pos (.inl (eq_false_of_ne_true hreleasable))] at h
    exact absurd h hreleasable

end Finalize

end StockProfiler.CandidateSelection
