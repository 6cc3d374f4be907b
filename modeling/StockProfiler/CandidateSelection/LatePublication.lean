import StockProfiler.CandidateSelection.CandidateRelease
import StockProfiler.Core.Checks
import StockProfiler.Core.Dict

/-!
# Late publication

A batch that was frozen at one clock and is confirmed at a later one is compared with the
batch that would have been frozen at the later clock.
-/

namespace StockProfiler.CandidateSelection

variable {reasons : List String}

/-- A member, and whether it is a candidate. -/
def candidateFlag (member : CalibratedMember) : String × String × Bool :=
  (member.securityId, member.researchId, member.candidate)

/-- A member, and what it is told about the qualification. -/
def statusFlag (member : CalibratedMember) :
    String × String × CandidateQualificationExplanationStatus :=
  (member.securityId, member.researchId, member.marketStateQualificationStatus)

/-- The flags of the candidates of a command when none of them is recommended. -/
def withheldFlags (command : CandidateReleaseCommand) : List (String × String × Bool) :=
  command.candidates.map fun candidate => (candidate.securityId, candidate.researchId, false)

/-- A qualification is in force at a clock. -/
def InForce (command : CandidateReleaseCommand) (observedAt : Instant) : Prop :=
  ∃ qualification, matchingQualification command observedAt = some qualification ∧
    qualification.status.isActive ∧ observedAt ≤ qualification.validThrough

section Status

variable {command : CandidateReleaseCommand} {observedAt : Instant}
  {qualification : Option MarketStateQualification}

/-- Members are told that the state is qualified exactly while a qualification is in force. -/
theorem explanationStatus_ne_notQualified :
    qualificationExplanationStatus qualification observedAt ≠ .notQualified ↔
      ∃ item, qualification = some item ∧ item.status.isActive ∧
        observedAt ≤ item.validThrough := by
  cases qualification with
  | none => simp [qualificationExplanationStatus]
  | some item =>
    simp only [qualificationExplanationStatus, Option.some.injEq]
    split
    · rename_i hnot
      refine ⟨fun h => absurd rfl h, ?_⟩
      rintro ⟨item', rfl, hactive, hvalid⟩
      rcases hnot with hnot | hnot
      · exact absurd hactive (by simp [hnot])
      · exact absurd hvalid (not_le.mpr hnot)
    · rename_i hnot
      rw [not_or, Bool.not_eq_false, not_lt] at hnot
      have hstatus : (if item.status = .atRisk then
          CandidateQualificationExplanationStatus.atRisk else .valid) ≠ .notQualified := by
        split <;> simp
      exact ⟨fun _ => ⟨item, rfl, hnot⟩, fun _ => hstatus⟩

/-- A qualification that has expired is told like none. -/
theorem explanationStatus_filter :
    qualificationExplanationStatus (qualification.filter (observedAt ≤ ·.validThrough)) observedAt =
      qualificationExplanationStatus qualification observedAt := by
  cases qualification with
  | none => rfl
  | some item =>
    by_cases hvalid : observedAt ≤ item.validThrough
    · rw [Option.filter_some, if_pos (decide_eq_true hvalid)]
    · rw [Option.filter_some, if_neg (by simpa using hvalid)]
      simp [qualificationExplanationStatus, not_le.mp hvalid]

end Status

section Freeze

variable {probability : ℚ → Option ℚ} {calendars : String → Option CoverageCalendar}
  {command : CandidateReleaseCommand} {calibration : Calibration} {t : Instant}

theorem flags_unavailableMembers (dates : List ℤ) (reasons : List String) :
    (unavailableMembers command dates reasons).map candidateFlag = withheldFlags command := by
  rw [unavailableMembers, List.map_map]
  rfl

theorem flags_excludeCandidateMembers {members : List CalibratedMember} :
    (excludeCandidateMembers members reasons).map candidateFlag =
      members.map fun member => (member.securityId, member.researchId, false) := by
  rw [excludeCandidateMembers, List.map_map]
  rfl

/-- The members of a complete batch at a clock. -/
def completeMembers (command : CandidateReleaseCommand) (rows : List (CandidateInput × ℚ))
    (t : Instant) : List CalibratedMember :=
  let qualification := (matchingQualification command t).filter (t ≤ ·.validThrough)
  rows.map fun (candidate, probability) =>
    calibratedMember qualification (qualificationExplanationStatus qualification t)
      ((candidateWindow command).map (·.marketDate)) candidate probability

/-- A batch whose probabilities are known and whose risk was assessed, at every clock. -/
structure Complete (calendars : String → Option CoverageCalendar)
    (command : CandidateReleaseCommand) (calibration : Calibration)
    (rows : List (CandidateInput × ℚ)) : Prop where
  window : (candidateWindow command).length = 5
  candidates : rows.map Prod.fst = command.candidates
  frozen : ∀ t, command.knowledgeCutoff ≤ t →
    let outcome := freezeCandidateRelease calendars command t calibration
    if missesWindow command t then
      outcome.disposition = .failed ∧ outcome.members =
        excludeCandidateMembers (completeMembers command rows t)
          ["PUBLICATION_AFTER_CANDIDATE_WINDOW"]
    else
      outcome.members = completeMembers command rows t ∧
      outcome.qualification = matchingQualification command t ∧ outcome.publishedAt = t ∧
      outcome.disposition = batchDisposition (completeMembers command rows t)
        (qualificationExplanationStatus (matchingQualification command t) t ≠ .notQualified)

/-- The clock of a batch decides neither its window nor its qualification. -/
theorem candidateWindow_at (command : CandidateReleaseCommand) (t : Instant) :
    candidateWindow { command with publishedAt := t } = candidateWindow command := rfl

theorem matchingQualification_at (command : CandidateReleaseCommand) (t observedAt : Instant) :
    matchingQualification { command with publishedAt := t } observedAt =
      matchingQualification command observedAt := rfl

/-- Within a complete window the late check of a freeze is the one of a confirmation. -/
theorem missesWindow_eq (h : (candidateWindow command).length = 5) (t : Instant) :
    missesWindow command t = (candidateWindow command).getLast?.any (·.closesAt < t) := by
  simp [missesWindow, h]

/-- A batch whose parts are all available is complete. -/
theorem complete_of_available (hwindow : candidateWindowError calendars command = none)
    (hversion : command.calibratorVersion = "monotone-firth-logistic-v1")
    (hdata : command.candidates.any (·.dataComplete = false) = false)
    (hprobability : ∀ candidate ∈ command.candidates,
      (probability candidate.rawSuccessScore).isSome)
    (hrisk : command.candidates.any (·.riskStatus = .failed) = false) :
    Complete calendars command (.ok probability) (command.candidates.map fun candidate =>
      (candidate, (probability candidate.rawSuccessScore).getD 0)) := by
  have hlength := length_candidateWindow calendars command hwindow
  refine ⟨hlength, ?_, fun t ht => ?_⟩
  · rw [List.map_map]
    exact List.map_id _
  · have herror : candidateWindowError calendars { command with publishedAt := t } = none :=
      (candidateWindowError_congr calendars command rfl rfl rfl rfl).trans hwindow
    have hmembers : (command.candidates.mapM fun candidate =>
        (probability candidate.rawSuccessScore).map (calibratedMember
          ((matchingQualification command t).filter (t ≤ ·.validThrough))
          (qualificationExplanationStatus
            ((matchingQualification command t).filter (t ≤ ·.validThrough)) t)
          ((candidateWindow command).map (·.marketDate)) candidate)) =
        some (completeMembers command (command.candidates.map fun candidate =>
          (candidate, (probability candidate.rawSuccessScore).getD 0)) t) := by
      rw [completeMembers, List.map_map]
      refine mapM_eq_some_map fun candidate hcandidate => ?_
      obtain ⟨value, hvalue⟩ := Option.isSome_iff_exists.mp (hprobability candidate hcandidate)
      rw [hvalue]
      simp [hvalue]
    have hstatus := @explanationStatus_filter t (matchingQualification command t)
    rw [missesWindow_eq hlength]
    unfold freezeCandidateRelease
    dsimp only
    rw [herror]
    dsimp only
    rw [if_neg (not_lt.mpr ht), if_neg (not_not.mpr hversion), if_neg (Bool.eq_false_iff.mp hdata)]
    simp only [candidateWindow_at, matchingQualification_at]
    rw [hmembers]
    dsimp only
    rw [if_neg (Bool.eq_false_iff.mp hrisk)]
    by_cases hlate : (candidateWindow command).getLast?.any (·.closesAt < t) = true
    · simp only [hlate]
      exact ⟨rfl, rfl⟩
    · simp only [hlate]
      refine ⟨rfl, rfl, rfl, ?_⟩
      rw [← hstatus]
      rfl

/-- A batch that is not frozen as failed is complete, and is frozen within its window. -/
theorem complete_of_freeze
    (h : (freezeCandidateRelease calendars command t calibration).disposition ≠ .failed) :
    command.knowledgeCutoff ≤ t ∧ missesWindow command t = false ∧
      ∃ rows, Complete calendars command calibration rows := by
  unfold freezeCandidateRelease at h
  simp only [candidateWindow_at, matchingQualification_at] at h
  split at h
  · exact absurd rfl h
  rename_i herror
  have hwindow : candidateWindowError calendars command = none :=
    (candidateWindowError_congr calendars command rfl rfl rfl rfl).symm.trans herror
  split at h
  · exact absurd rfl h
  rename_i hcutoff
  split at h
  · exact absurd rfl h
  rename_i hversion
  split at h
  · exact absurd rfl h
  rename_i hdata
  split at h
  · exact absurd rfl h
  rename_i probability
  split at h
  · exact absurd rfl h
  rename_i members hmembers
  split at h
  · exact absurd rfl h
  rename_i hrisk
  by_cases hlate : (candidateWindow command).getLast?.any (·.closesAt < t) = true
  · simp only [hlate] at h
    exact absurd rfl h
  refine ⟨not_lt.mp hcutoff, ?_, _, complete_of_available hwindow (not_not.mp hversion)
    (Bool.eq_false_iff.mpr hdata) (fun candidate hcandidate => ?_) (Bool.eq_false_iff.mpr hrisk)⟩
  · rw [missesWindow_eq (length_candidateWindow calendars command hwindow)]
    exact Bool.eq_false_iff.mpr hlate
  · obtain ⟨member, -, hmember⟩ :=
      forall₂_mem_left (forall₂_of_mapM_eq_some hmembers) hcandidate
    obtain ⟨value, hvalue, -⟩ := Option.map_eq_some_iff.mp hmember
    rw [hvalue]
    rfl

theorem batchDisposition_ne_failed (members : List CalibratedMember) (qualified : Bool) :
    batchDisposition members qualified ≠ .failed := by
  unfold batchDisposition
  split
  · simp
  · split <;> simp

theorem withheld_of_mapM {f : CandidateInput → ℚ → CalibratedMember}
    {members : List CalibratedMember}
    (hids : ∀ candidate value, (f candidate value).securityId = candidate.securityId ∧
      (f candidate value).researchId = candidate.researchId)
    (h : command.candidates.mapM (fun candidate =>
      (probability candidate.rawSuccessScore).map (f candidate)) = some members) :
    members.map (fun member => (member.securityId, member.researchId, false)) =
      withheldFlags command := by
  refine (map_eq_map_of_forall₂ ((forall₂_of_mapM_eq_some h).imp
    fun candidate member hmember => ?_)).symm
  obtain ⟨value, -, rfl⟩ := Option.map_eq_some_iff.mp hmember
  rw [(hids candidate value).1, (hids candidate value).2]

/-- A batch that is frozen as failed withholds every candidate. -/
theorem flags_of_failed
    (h : (freezeCandidateRelease calendars command t calibration).disposition = .failed) :
    (freezeCandidateRelease calendars command t calibration).members.map candidateFlag =
      withheldFlags command := by
  unfold freezeCandidateRelease at h ⊢
  simp only [candidateWindow_at, matchingQualification_at] at h ⊢
  split
  · exact flags_unavailableMembers _ _
  rename_i herror
  rw [herror] at h
  dsimp only at h
  by_cases hcutoff : t < command.knowledgeCutoff
  · rw [if_pos hcutoff]
    exact flags_unavailableMembers _ _
  rw [if_neg hcutoff] at h ⊢
  by_cases hversion : command.calibratorVersion ≠ "monotone-firth-logistic-v1"
  · rw [if_pos hversion]
    exact flags_unavailableMembers _ _
  rw [if_neg hversion] at h ⊢
  by_cases hdata : command.candidates.any (·.dataComplete = false) = true
  · rw [if_pos hdata]
    exact flags_unavailableMembers _ _
  rw [if_neg hdata] at h ⊢
  cases calibration with
  | error reason => exact flags_unavailableMembers _ _
  | ok probability =>
    dsimp only at h ⊢
    split
    · exact flags_unavailableMembers _ _
    rename_i members hmembers
    rw [hmembers] at h
    dsimp only at h
    have hwithheld := withheld_of_mapM (fun candidate value => ⟨rfl, rfl⟩) hmembers
    by_cases hrisk : command.candidates.any (·.riskStatus = .failed) = true
    · rw [if_pos hrisk]
      change (members.map _).map candidateFlag = _
      rw [List.map_map]
      exact hwithheld
    rw [if_neg hrisk] at h ⊢
    by_cases hlate : (candidateWindow command).getLast?.any (·.closesAt < t) = true
    · simp only [hlate]
      exact flags_excludeCandidateMembers.trans hwithheld
    · simp only [hlate] at h
      exact absurd h (batchDisposition_ne_failed _ _)

end Freeze

section Telling

variable {members : List CalibratedMember} {status : CandidateQualificationExplanationStatus}

/-- The reasons that say what a qualification is. -/
def statusReasons : CandidateQualificationExplanationStatus → List String
  | .valid => []
  | .atRisk => ["MARKET_STATE_QUALIFICATION_AT_RISK"]
  | .notQualified => ["MARKET_STATE_NOT_QUALIFIED"]

/-- The reasons that do not come from a qualification. -/
def keptReasons (reasons : List String) : List String :=
  reasons.filter fun reason => reason ∉ ["ALL_CANDIDATE_GATES_PASSED",
    "MARKET_STATE_NOT_QUALIFIED", "MARKET_STATE_QUALIFICATION_AT_RISK"]

/-- The reasons of a member once it is told about a status. -/
def toldReasons (status : CandidateQualificationExplanationStatus) (reasons : List String) :
    List String :=
  let told := (keptReasons reasons ++ statusReasons status).eraseDups
  if told = [] then ["ALL_CANDIDATE_GATES_PASSED"] else told

theorem keptReasons_statusReasons : keptReasons (statusReasons status) = [] := by
  cases status <;> rfl

theorem keptReasons_toldReasons (reasons : List String) :
    keptReasons (toldReasons status reasons) = (keptReasons reasons).eraseDups := by
  have hkept : keptReasons (keptReasons reasons ++ statusReasons status).eraseDups =
      (keptReasons reasons).eraseDups := by
    have hidem : keptReasons (keptReasons reasons) = keptReasons reasons := by
      simp [keptReasons]
    have happend : keptReasons (keptReasons reasons ++ statusReasons status) =
        keptReasons reasons := by
      conv_rhs => rw [← hidem, ← List.append_nil (keptReasons (keptReasons reasons)),
        ← @keptReasons_statusReasons status]
      exact List.filter_append _ _
    rw [keptReasons, filter_eraseDups]
    exact congrArg List.eraseDups happend
  unfold toldReasons
  dsimp only
  split
  · rename_i hnil
    rw [← hkept, hnil]
    rfl
  · exact hkept

/-- The reasons that a member is told twice are those that it is told once. -/
theorem toldReasons_idem (reasons : List String) :
    toldReasons status (toldReasons status reasons) = toldReasons status reasons := by
  have hremove (xs ys : List String) : xs.removeAll ys.eraseDups = xs.removeAll ys := by
    unfold List.removeAll
    simp
  have htold : (keptReasons (toldReasons status reasons) ++ statusReasons status).eraseDups =
      (keptReasons reasons ++ statusReasons status).eraseDups := by
    rw [keptReasons_toldReasons, List.eraseDups_append, eraseDups_of_nodup (eraseDups_nodup _),
      hremove, ← List.eraseDups_append]
  rw [toldReasons, htold, toldReasons]

theorem membersWithQualificationStatus_eq :
    membersWithQualificationStatus members status [] = members.map fun member =>
      { member with
        candidate := member.candidate && status ≠ .notQualified
        marketStateQualified := status ≠ .notQualified
        marketStateQualificationStatus := status
        reasons := toldReasons status member.reasons } := by
  unfold membersWithQualificationStatus
  refine List.map_congr_left fun member _ => ?_
  cases status <;> simp [toldReasons, keptReasons, statusReasons]

/-- Telling members twice about one status is telling them once. -/
theorem membersWithQualificationStatus_idem :
    membersWithQualificationStatus (membersWithQualificationStatus members status []) status [] =
      membersWithQualificationStatus members status [] := by
  rw [membersWithQualificationStatus_eq, membersWithQualificationStatus_eq, List.map_map]
  refine List.map_congr_left fun member _ => ?_
  simp [toldReasons_idem]

end Telling

section Confirm

variable {status : CandidateQualificationExplanationStatus} {member : CalibratedMember}
  {confirmed : CandidateReleaseOutcome} {calendars : String → Option CoverageCalendar}
  {command : CandidateReleaseCommand} {calibration : Calibration}
  {outcome : CandidateReleaseOutcome} {t t' : Instant}

/-- The reasons that a batch is given when its qualification has lapsed. -/
def lapsedReasons (command : CandidateReleaseCommand) (t' : Instant) : List String :=
  if (matchingQualification command t').any (·.validThrough < t') then
    ["MARKET_STATE_QUALIFICATION_EXPIRED"] else []

/-- How the confirmation of an outcome at a clock ends. -/
inductive Confirmed (command : CandidateReleaseCommand) (outcome : CandidateReleaseOutcome)
    (t' : Instant) (confirmed : CandidateReleaseOutcome) : Prop where
  | missed (hreleasable : outcome.disposition.isReleasable) (hlate : missesWindow command t')
      (heq : confirmed =
        { outcome with
          publishedAt := t'
          qualification := matchingQualification command t'
          disposition := .failed
          members := excludeCandidateMembers outcome.members
            ["PUBLICATION_AFTER_CANDIDATE_WINDOW"]
          population :=
            { outcome.population with
              validMonthly := false
              recommendationCoverageDenominator := false
              recommendationCoveragePass := false }
          reasons := ["PUBLICATION_AFTER_CANDIDATE_WINDOW"] })
  | unreleasable (hreleasable : outcome.disposition.isReleasable = false)
      (heq : confirmed =
        { outcome with publishedAt := t', qualification := matchingQualification command t' })
  | abstained (hlate : missesWindow command t' = false)
      (habstained : outcome.disposition = .recommendationAbstained)
      (heq : confirmed =
        { outcome with publishedAt := t', qualification := matchingQualification command t' })
  | inForce (hlate : missesWindow command t' = false)
      (hreleasable : outcome.disposition.isReleasable)
      (habstained : outcome.disposition ≠ .recommendationAbstained) (hforce : InForce command t')
      (heq : confirmed =
        { outcome with
          publishedAt := t'
          qualification := matchingQualification command t'
          members := membersWithQualificationStatus outcome.members
            (qualificationExplanationStatus (matchingQualification command t') t') [] })
  | lapsed (hlate : missesWindow command t' = false)
      (hreleasable : outcome.disposition.isReleasable)
      (habstained : outcome.disposition ≠ .recommendationAbstained) (hforce : ¬InForce command t')
      (heq : confirmed =
        { outcome with
          publishedAt := t'
          qualification := matchingQualification command t'
          disposition := .recommendationAbstained
          members := membersWithQualificationStatus outcome.members .notQualified
            (lapsedReasons command t')
          population := { outcome.population with recommendationCoveragePass := false }
          reasons := "MARKET_STATE_NOT_QUALIFIED" :: lapsedReasons command t' })

/-- The qualification of an outcome that is of the clock itself is the one that the clock sees. -/
def ReadsMatching (command : CandidateReleaseCommand) (outcome : CandidateReleaseOutcome)
    (t' : Instant) : Prop :=
  outcome.publishedAt = t' → outcome.qualification = matchingQualification command t'

theorem inForce_iff : InForce command t' ↔ (matchingQualification command t').any fun item =>
    item.status.isActive ∧ t' ≤ item.validThrough := by
  rw [Option.any_eq_true]
  exact exists_congr fun item => and_congr_right fun _ => decide_eq_true_iff.symm

/-- Every confirmation of an outcome ends in one of these ways. -/
theorem confirmed_finalize (hreads : ReadsMatching command outcome t') :
    Confirmed command outcome t' (finalizeCandidateReleasePublication command outcome t') := by
  set matching := matchingQualification command t' with hmatching
  -- Whether it is preserved or read again, the qualification is the one that the clock sees.
  have hqualification (p : Prop) [Decidable p] (hp : p → outcome.publishedAt = t') :
      (if p then outcome.qualification else matching) = matching := by
    split
    · exact hreads (hp ‹p›)
    · rfl
  unfold finalizeCandidateReleasePublication
  dsimp only
  rw [← hmatching, hqualification _ fun h => (of_decide_eq_true h).1]
  by_cases hreleasable : outcome.disposition.isReleasable
  · by_cases hlate : missesWindow command t'
    · rw [if_pos ⟨hreleasable, hlate⟩]
      exact .missed hreleasable hlate rfl
    rw [if_neg fun h => hlate h.2]
    have hlate := Bool.eq_false_iff.mpr hlate
    by_cases habstained : outcome.disposition = .recommendationAbstained
    · rw [if_pos (.inr habstained)]
      exact .abstained hlate habstained rfl
    rw [if_neg (not_or.mpr ⟨by simp [hreleasable], habstained⟩)]
    split
    · rename_i hforce
      exact .inForce hlate hreleasable habstained (inForce_iff.mpr hforce) rfl
    · rename_i hforce
      exact .lapsed hlate hreleasable habstained (fun h => hforce (inForce_iff.mp h)) rfl
  · rw [if_neg fun h => hreleasable h.1, if_pos (.inl (Bool.eq_false_iff.mpr hreleasable))]
    exact .unreleasable (Bool.eq_false_iff.mpr hreleasable) rfl

/-- A frozen batch is of its own clock, with the qualification that this clock sees. -/
theorem published_freeze :
    (freezeCandidateRelease calendars command t calibration).publishedAt = t ∧
      (freezeCandidateRelease calendars command t calibration).qualification =
        matchingQualification command t := by
  unfold freezeCandidateRelease
  dsimp only
  repeat' split
  all_goals exact ⟨rfl, rfl⟩

/-- A row that is recommended while a qualification is in force. -/
def isEligible (row : CandidateInput × ℚ) : Bool :=
  probabilityThreshold ≤ row.2 ∧ row.1.riskStatus = .accepted

/-- What members are told at a clock. -/
def statusAt (command : CandidateReleaseCommand) (t : Instant) :
    CandidateQualificationExplanationStatus :=
  qualificationExplanationStatus (matchingQualification command t) t

theorem statusAt_ne_notQualified : statusAt command t ≠ .notQualified ↔ InForce command t :=
  explanationStatus_ne_notQualified

variable {rows : List (CandidateInput × ℚ)}

/-- The members of a complete batch are recommended while a qualification is in force. -/
theorem flags_completeMembers : (completeMembers command rows t).map candidateFlag =
    rows.map fun row => (row.1.securityId, row.1.researchId,
      isEligible row && decide (statusAt command t ≠ .notQualified)) := by
  rw [completeMembers, List.map_map]
  refine List.map_congr_left fun row _ => ?_
  simp only [Function.comp_apply, candidateFlag, calibratedMember, explanationStatus_filter,
    Prod.mk.injEq, true_and]
  rw [Bool.eq_iff_iff, Bool.and_eq_true, isEligible, decide_eq_true_iff, decide_eq_true_iff,
    decide_eq_true_iff, decide_eq_true_iff, and_assoc]
  exact and_congr_right fun _ => and_comm

theorem statuses_completeMembers : (completeMembers command rows t).map statusFlag =
    rows.map fun row => (row.1.securityId, row.1.researchId, statusAt command t) := by
  rw [completeMembers, List.map_map]
  refine List.map_congr_left fun row _ => ?_
  simp only [Function.comp_apply, statusFlag, calibratedMember, explanationStatus_filter, statusAt]

theorem flags_membersWithQualificationStatus {members : List CalibratedMember} :
    (membersWithQualificationStatus members status reasons).map candidateFlag =
      (members.map candidateFlag).map fun flag =>
        (flag.1, flag.2.1, flag.2.2 && decide (status ≠ .notQualified)) := by
  rw [membersWithQualificationStatus, List.map_map, List.map_map]
  rfl

theorem statuses_membersWithQualificationStatus {members : List CalibratedMember} :
    (membersWithQualificationStatus members status reasons).map statusFlag =
      (members.map candidateFlag).map fun flag => (flag.1, flag.2.1, status) := by
  rw [membersWithQualificationStatus, List.map_map, List.map_map]
  rfl

theorem flags_exclude_eq {members : List CalibratedMember} :
    (excludeCandidateMembers members reasons).map candidateFlag =
      (members.map candidateFlag).map fun flag => (flag.1, flag.2.1, false) := by
  rw [excludeCandidateMembers, List.map_map, List.map_map]
  rfl

/-- A complete batch abstains without a qualification, and is of its eligible rows with one. -/
theorem disposition_completeMembers :
    batchDisposition (completeMembers command rows t)
        (decide (statusAt command t ≠ .notQualified)) =
      if statusAt command t ≠ .notQualified then
        if rows.any isEligible then .candidates else .validNoCandidates
      else .recommendationAbstained := by
  have hany : (completeMembers command rows t).any (·.candidate) =
      (rows.any isEligible && decide (statusAt command t ≠ .notQualified)) := by
    calc (completeMembers command rows t).any (·.candidate)
        = ((completeMembers command rows t).map candidateFlag).any (·.2.2) := by
          rw [List.any_map]
          rfl
      _ = rows.any fun row => isEligible row && decide (statusAt command t ≠ .notQualified) := by
          rw [flags_completeMembers, List.any_map]
          rfl
      _ = (rows.any isEligible && decide (statusAt command t ≠ .notQualified)) := by
          cases decide (statusAt command t ≠ .notQualified) <;> simp
  unfold batchDisposition
  rw [hany]
  by_cases hstatus : statusAt command t ≠ .notQualified
  · rw [decide_eq_true hstatus, Bool.and_true, if_pos hstatus]
    rfl
  · rw [decide_eq_false hstatus, Bool.and_false, if_neg hstatus]
    rfl

/-- What a frozen batch that is not failed says. -/
structure Agreement (calendars : String → Option CoverageCalendar)
    (command : CandidateReleaseCommand)
    (calibration : Calibration) (rows : List (CandidateInput × ℚ)) (t : Instant)
    (outcome : CandidateReleaseOutcome) : Prop where
  complete : Complete calendars command calibration rows
  cutoff : command.knowledgeCutoff ≤ t
  inTime : missesWindow command t = false
  members : outcome.members = completeMembers command rows t
  disposition : outcome.disposition = if statusAt command t ≠ .notQualified then
      if rows.any isEligible then .candidates else .validNoCandidates
    else .recommendationAbstained

/-- A complete batch is frozen within its window as what its rows say. -/
theorem Complete.agreement (h : Complete calendars command calibration rows)
    (hcutoff : command.knowledgeCutoff ≤ t) (hlate : missesWindow command t = false) :
    Agreement calendars command calibration rows t
      (freezeCandidateRelease calendars command t calibration) := by
  have hfrozen := h.frozen t hcutoff
  dsimp only at hfrozen
  rw [if_neg (Bool.eq_false_iff.mp hlate)] at hfrozen
  obtain ⟨hmembers, -, -, hdisposition⟩ := hfrozen
  exact ⟨h, hcutoff, hlate, hmembers, hdisposition.trans disposition_completeMembers⟩

/-- A batch that is not frozen as failed says what its rows say. -/
theorem agreement_of_freeze
    (h : (freezeCandidateRelease calendars command t calibration).disposition ≠ .failed) :
    ∃ rows, Agreement calendars command calibration rows t
      (freezeCandidateRelease calendars command t calibration) := by
  obtain ⟨hcutoff, hlate, rows, hcomplete⟩ := complete_of_freeze h
  exact ⟨rows, hcomplete.agreement hcutoff hlate⟩

/-- A complete batch that misses its window is frozen as failed. -/
theorem Complete.missed (h : Complete calendars command calibration rows)
    (hcutoff : command.knowledgeCutoff ≤ t) (hlate : missesWindow command t) :
    (freezeCandidateRelease calendars command t calibration).disposition = .failed := by
  have hfrozen := h.frozen t hcutoff
  dsimp only at hfrozen
  rw [if_pos hlate] at hfrozen
  exact hfrozen.1

namespace Agreement

variable (h : Agreement calendars command calibration rows t outcome)
include h

theorem isReleasable : outcome.disposition.isReleasable := by
  rw [h.disposition]
  split
  · split <;> rfl
  · rfl

theorem abstained_iff : outcome.disposition = .recommendationAbstained ↔ ¬InForce command t := by
  rw [← statusAt_ne_notQualified, h.disposition]
  split
  · rename_i hstatus
    refine ⟨fun heq => ?_, fun hnot => absurd hstatus hnot⟩
    split at heq <;> exact nomatch heq
  · rename_i hstatus
    exact ⟨fun _ => hstatus, fun _ => rfl⟩

theorem withheld : (rows.map fun row => (row.1.securityId, row.1.researchId, false)) =
    withheldFlags command := by
  rw [withheldFlags, ← h.complete.candidates, List.map_map]
  rfl

/-- Without a qualification in force every member is withheld. -/
theorem flags_of_not_inForce (hforce : ¬InForce command t) :
    outcome.members.map candidateFlag = withheldFlags command := by
  rw [h.members, flags_completeMembers, ← h.withheld]
  refine List.map_congr_left fun row _ => ?_
  rw [decide_eq_false (mt statusAt_ne_notQualified.mp hforce), Bool.and_false]

end Agreement

theorem missesWindow_mono (h : t ≤ t') (hlate : missesWindow command t) :
    missesWindow command t' := by
  obtain ⟨hlength, hlast⟩ := of_decide_eq_true hlate
  obtain ⟨last, hmem, hclosed⟩ := (Option.any_eq_true _ _).mp hlast
  refine decide_eq_true ⟨hlength, (Option.any_eq_true _ _).mpr ⟨last, hmem, ?_⟩⟩
  exact decide_eq_true (lt_of_lt_of_le (of_decide_eq_true hclosed) h)

theorem failed_mono (h : t ≤ t')
    (hcutoff : t < command.knowledgeCutoff → t' < command.knowledgeCutoff)
    (hfailed : (freezeCandidateRelease calendars command t calibration).disposition = .failed) :
    (freezeCandidateRelease calendars command t' calibration).disposition = .failed := by
  by_contra hne
  obtain ⟨hcutoff', hlate, rows, hcomplete⟩ := complete_of_freeze hne
  have hbefore : command.knowledgeCutoff ≤ t := by
    by_contra hlt
    exact absurd hcutoff' (not_le.mpr (hcutoff (not_le.mp hlt)))
  have htime : missesWindow command t = false := by
    by_contra hmissed
    rw [missesWindow_mono h (eq_true_of_ne_false hmissed)] at hlate
    exact nomatch hlate
  have hreleasable := (hcomplete.agreement hbefore htime).isReleasable
  rw [hfailed] at hreleasable
  exact nomatch hreleasable

/-- An outcome that its own clock neither fails nor withdraws is confirmed as it is. -/
theorem finalize_eq_self (hpublished : outcome.publishedAt = t')
    (hqualification : outcome.qualification = matchingQualification command t')
    (htime : outcome.disposition.isReleasable → missesWindow command t' = false)
    (hforce : outcome.disposition.isReleasable →
      outcome.disposition ≠ .recommendationAbstained → InForce command t' ∧
        membersWithQualificationStatus outcome.members (statusAt command t') [] =
          outcome.members) : finalizeCandidateReleasePublication command outcome t' = outcome := by
  have hself : { outcome with
      publishedAt := t', qualification := matchingQualification command t' } = outcome := by
    rw [← hqualification, ← hpublished]
  have hconfirmed : Confirmed command outcome t' _ := confirmed_finalize fun _ => hqualification
  cases hconfirmed with
  | missed hreleasable hlate _ => rw [htime hreleasable] at hlate; exact nomatch hlate
  | unreleasable _ heq => exact heq.trans hself
  | abstained _ _ heq => exact heq.trans hself
  | inForce _ hreleasable habstained _ heq =>
    refine heq.trans (Eq.trans ?_ hself)
    rw [← statusAt, (hforce hreleasable habstained).2]
  | lapsed _ hreleasable habstained hnot _ => exact absurd (hforce hreleasable habstained).1 hnot

/-- Confirming again at the same clock changes nothing. -/
theorem finalize_idem (hreads : ReadsMatching command outcome t') :
    finalizeCandidateReleasePublication command
        (finalizeCandidateReleasePublication command outcome t') t' =
      finalizeCandidateReleasePublication command outcome t' := by
  cases confirmed_finalize hreads with
  | missed hreleasable hlate heq =>
    rw [heq]
    exact finalize_eq_self rfl rfl (fun h => nomatch h) (fun h => nomatch h)
  | unreleasable hreleasable heq =>
    rw [heq]
    refine finalize_eq_self rfl rfl (fun h => ?_) (fun h => ?_) <;>
      exact absurd h (Bool.eq_false_iff.mp hreleasable)
  | abstained hlate habstained heq =>
    rw [heq]
    exact finalize_eq_self rfl rfl (fun _ => hlate) (fun _ hne => absurd habstained hne)
  | inForce hlate hreleasable habstained hforce heq =>
    rw [heq]
    exact finalize_eq_self rfl rfl (fun _ => hlate) fun _ _ =>
      ⟨hforce, membersWithQualificationStatus_idem⟩
  | lapsed hlate hreleasable habstained hforce heq =>
    rw [heq]
    exact finalize_eq_self rfl rfl (fun _ => hlate) fun _ hne => absurd rfl hne

/-- A confirmed batch has the disposition, the candidates and the statuses of another one. -/
structure Agrees (confirmed direct : CandidateReleaseOutcome) : Prop where
  disposition : confirmed.disposition = direct.disposition
  candidates : confirmed.members.map candidateFlag = direct.members.map candidateFlag
  /-- The members of a failed batch keep the statuses of the clock at which it was frozen. -/
  statuses : confirmed.disposition ≠ .failed →
    confirmed.members.map statusFlag = direct.members.map statusFlag

/-- A frozen batch reads the qualification of its own clock. -/
theorem readsMatching_freeze : ReadsMatching command
    (freezeCandidateRelease calendars command t calibration) t' := by
  intro h
  rw [published_freeze.2, ← h, published_freeze.1]

/-- The confirmation of a batch that says something agrees with a later freeze. -/
theorem Agreement.agrees (h : t ≤ t') (hagrees : Agreement calendars command calibration rows t
      (freezeCandidateRelease calendars command t calibration)) (hforce : InForce command t) :
    Agrees (finalizeCandidateReleasePublication command
        (freezeCandidateRelease calendars command t calibration) t')
      (freezeCandidateRelease calendars command t' calibration) := by
  have hnot := mt hagrees.abstained_iff.mp (not_not.mpr hforce)
  have hcutoff := hagrees.cutoff.trans h
  have hflags := congrArg (List.map candidateFlag) hagrees.members
  rw [flags_completeMembers, decide_eq_true (statusAt_ne_notQualified.mpr hforce)] at hflags
  cases confirmed_finalize (@readsMatching_freeze calendars command calibration t t') with
  | missed _ hlate heq =>
    have hfailed := hagrees.complete.missed hcutoff hlate
    refine ⟨?_, ?_, fun hne => ?_⟩
    · rw [heq, hfailed]
    · rw [heq, flags_of_failed hfailed, flags_exclude_eq, hflags, List.map_map]
      exact hagrees.withheld
    · rw [heq] at hne
      exact absurd rfl hne
  | unreleasable hreleasable _ =>
    exact absurd hagrees.isReleasable (Bool.eq_false_iff.mp hreleasable)
  | abstained _ habstained _ => exact absurd habstained hnot
  | inForce hlate _ _ hforce' heq =>
    have hdirect := hagrees.complete.agreement hcutoff hlate
    refine ⟨?_, ?_, fun _ => ?_⟩
    · rw [heq, hdirect.disposition, if_pos (statusAt_ne_notQualified.mpr hforce')]
      refine hagrees.disposition.trans ?_
      rw [if_pos (statusAt_ne_notQualified.mpr hforce)]
    · rw [heq, hdirect.members, flags_completeMembers, flags_membersWithQualificationStatus,
        hflags, List.map_map]
      refine List.map_congr_left fun row _ => ?_
      rw [Function.comp_apply, Bool.and_true]
      rfl
    · rw [heq, hdirect.members, statuses_completeMembers, statuses_membersWithQualificationStatus,
        hflags, List.map_map]
      rfl
  | lapsed hlate _ _ hforce' heq =>
    have hdirect := hagrees.complete.agreement hcutoff hlate
    refine ⟨?_, ?_, fun _ => ?_⟩
    · rw [heq, hdirect.abstained_iff.mpr hforce']
    · rw [heq, hdirect.flags_of_not_inForce hforce', flags_membersWithQualificationStatus, hflags,
        List.map_map, ← hagrees.withheld]
      refine List.map_congr_left fun row _ => ?_
      simp
    · rw [heq, hdirect.members, statuses_completeMembers, statuses_membersWithQualificationStatus,
        hflags, List.map_map, not_not.mp (mt statusAt_ne_notQualified.mp hforce')]
      rfl

theorem not_candidate_of_withheld {members : List CalibratedMember}
    (h : members.map candidateFlag = withheldFlags command) (hmember : member ∈ members) :
    member.candidate = false := by
  have hflag : candidateFlag member ∈ withheldFlags command := h ▸ List.mem_map_of_mem hmember
  obtain ⟨candidate, -, heq⟩ := List.mem_map.mp hflag
  exact (congrArg (·.2.2) heq).symm

/-- A candidate of a confirmed batch was one before, and is still authorized. -/
theorem candidate_of_confirmed (h : Confirmed command outcome t' confirmed)
    (hmember : member ∈ confirmed.members) (hcandidate : member.candidate) :
    (∃ before ∈ outcome.members, before.candidate) ∧ (outcome.disposition.isReleasable →
      outcome.disposition ≠ .recommendationAbstained → InForce command t') := by
  cases h with
  | missed _ _ heq =>
    rw [heq] at hmember
    obtain ⟨before, -, rfl⟩ := List.mem_map.mp hmember
    exact nomatch hcandidate
  | unreleasable hreleasable heq =>
    rw [heq] at hmember
    exact ⟨⟨member, hmember, hcandidate⟩,
      fun h => absurd h (Bool.eq_false_iff.mp hreleasable)⟩
  | abstained _ habstained heq =>
    rw [heq] at hmember
    exact ⟨⟨member, hmember, hcandidate⟩, fun _ hne => absurd habstained hne⟩
  | inForce _ _ _ hforce heq =>
    rw [heq] at hmember
    obtain ⟨before, hbefore, rfl⟩ := List.mem_map.mp hmember
    exact ⟨⟨before, hbefore, (Bool.and_eq_true_iff.mp hcandidate).1⟩, fun _ _ => hforce⟩
  | lapsed _ _ _ _ heq =>
    rw [heq] at hmember
    obtain ⟨before, -, rfl⟩ := List.mem_map.mp hmember
    simp at hcandidate

/-- Only a batch that releases candidates is confirmed to. -/
theorem candidates_of_confirmed (h : Confirmed command outcome t' confirmed)
    (hdisposition : confirmed.disposition = .candidates) : outcome.disposition = .candidates := by
  cases h with
  | missed _ _ heq => rw [heq] at hdisposition; exact nomatch hdisposition
  | unreleasable _ heq => rw [heq] at hdisposition; exact hdisposition
  | abstained _ _ heq => rw [heq] at hdisposition; exact hdisposition
  | inForce _ _ _ _ heq => rw [heq] at hdisposition; exact hdisposition
  | lapsed _ _ _ _ heq => rw [heq] at hdisposition; exact nomatch hdisposition

/-- A frozen batch with a candidate says something, under a qualification in force. -/
theorem agreement_of_candidate (h : ∃ member ∈ (freezeCandidateRelease calendars command t
      calibration).members, member.candidate) :
    InForce command t ∧ ∃ rows, Agreement calendars command calibration rows t
      (freezeCandidateRelease calendars command t calibration) := by
  obtain ⟨member, hmember, hcandidate⟩ := h
  have hne : (freezeCandidateRelease calendars command t calibration).disposition ≠ .failed := by
    intro hfailed
    rw [not_candidate_of_withheld (flags_of_failed hfailed) hmember] at hcandidate
    exact nomatch hcandidate
  obtain ⟨rows, hagrees⟩ := agreement_of_freeze hne
  refine ⟨?_, rows, hagrees⟩
  by_contra hforce
  rw [not_candidate_of_withheld (hagrees.flags_of_not_inForce hforce) hmember] at hcandidate
  exact nomatch hcandidate

/-- **Late publication agrees with direct evaluation.** A batch that is confirmed later has no
candidate that it would not have if it were frozen then, and none without a qualification in force;
unless it abstained, or its knowledge comes between the clocks, it has the disposition and the
candidates that it would have, and the statuses unless it fails; confirming again changes
nothing. -/
theorem finalize_agrees_with_freeze (calendars : String → Option CoverageCalendar)
    (command : CandidateReleaseCommand) (calibration : Calibration) {t t' : Instant} (h : t ≤ t') :
    let frozen := freezeCandidateRelease calendars command t calibration
    let confirmed := finalizeCandidateReleasePublication command frozen t'
    let direct := freezeCandidateRelease calendars command t' calibration
    (∀ member ∈ confirmed.members, member.candidate →
      candidateFlag member ∈ direct.members.map candidateFlag ∧ InForce command t') ∧
    (confirmed.disposition = .candidates → direct.disposition = .candidates) ∧
    (frozen.disposition ≠ .recommendationAbstained →
      (t < command.knowledgeCutoff → t' < command.knowledgeCutoff) → Agrees confirmed direct) ∧
    finalizeCandidateReleasePublication command confirmed t' = confirmed := by
  have hreads := @readsMatching_freeze calendars command calibration t t'
  have hconfirmed := confirmed_finalize hreads
  refine ⟨fun member hmember hcandidate => ?_, fun hdisposition => ?_, fun hne hcutoff => ?_,
    finalize_idem hreads⟩
  · obtain ⟨hbefore, hforce⟩ := candidate_of_confirmed hconfirmed hmember hcandidate
    obtain ⟨hforceBefore, rows, hagrees⟩ := agreement_of_candidate hbefore
    refine ⟨?_,
      hforce hagrees.isReleasable (mt hagrees.abstained_iff.mp (not_not.mpr hforceBefore))⟩
    rw [← (hagrees.agrees h hforceBefore).candidates]
    exact List.mem_map_of_mem hmember
  · have hbefore := candidates_of_confirmed hconfirmed hdisposition
    have hne : (freezeCandidateRelease calendars command t calibration).disposition ≠ .failed :=
      fun hfailed => nomatch hbefore.symm.trans hfailed
    obtain ⟨rows, hagrees⟩ := agreement_of_freeze hne
    have hforce : InForce command t := by
      by_contra hforce
      exact nomatch hbefore.symm.trans (hagrees.abstained_iff.mpr hforce)
    exact (hagrees.agrees h hforce).disposition.symm.trans hdisposition
  · by_cases hfailed :
      (freezeCandidateRelease calendars command t calibration).disposition = .failed
    · have hdirect := failed_mono h hcutoff hfailed
      cases hconfirmed with
      | unreleasable _ heq =>
        refine ⟨?_, ?_, fun hnot => ?_⟩
        · rw [heq, hdirect]
          exact hfailed
        · rw [heq, flags_of_failed hdirect]
          exact flags_of_failed hfailed
        · rw [heq] at hnot
          exact absurd hfailed hnot
      | missed hreleasable _ _ => rw [hfailed] at hreleasable; exact nomatch hreleasable
      | abstained _ habstained _ => exact absurd habstained hne
      | inForce _ hreleasable _ _ _ => rw [hfailed] at hreleasable; exact nomatch hreleasable
      | lapsed _ hreleasable _ _ _ => rw [hfailed] at hreleasable; exact nomatch hreleasable
    · obtain ⟨rows, hagrees⟩ := agreement_of_freeze hfailed
      exact hagrees.agrees h (not_not.mp (mt hagrees.abstained_iff.mpr hne))

end Confirm

namespace SampleRelease

def day : ℤ := 86400000000

def calendar : CoverageCalendar where
  sessions := (List.range 6).map fun n => ⟨n, n * day + sessionLength⟩
  terminalSessions := []

def calendars : String → Option CoverageCalendar := fun _ => some calendar

def qualification (validThrough : Instant) : MarketStateQualification where
  marketState := .bull
  status := .valid
  qualificationId := "Q"
  capabilityVersion := "1"
  marketCalendarVersion := "C"
  recordedAt := 0
  validThrough := validThrough

def command (riskStatus : RiskStatus) (validThrough : Instant) : CandidateReleaseCommand where
  batchId := "B"
  capabilityVersion := "1"
  researchObjectId := "O"
  researchEventId := "E"
  knowledgeCutoff := sessionLength
  publishedAt := sessionLength
  lastCompletedMarketSessionSequence := 0
  marketState := .bull
  marketCalendarVersion := "C"
  qualifications := [qualification validThrough]
  calibratorVersion := "monotone-firth-logistic-v1"
  candidates := [⟨"S", "R", 1, true, riskStatus⟩]
  marketSessions := (List.range 5).map fun n =>
    ⟨n + 1, (n + 1) * day, (n + 1) * day + sessionLength, n + 1⟩

def calibration : Calibration := .ok fun _ => some (9 / 10)

def frozen (command : CandidateReleaseCommand) (t : Instant) : CandidateReleaseOutcome :=
  freezeCandidateRelease calendars command t calibration

def confirmed (command : CandidateReleaseCommand) (t t' : Instant) : CandidateReleaseOutcome :=
  finalizeCandidateReleasePublication command (frozen command t) t'

theorem lapses_spec :
    (frozen (command .accepted (2 * day)) day).disposition = .candidates ∧
      (frozen (command .accepted (2 * day)) (3 * day)).disposition = .recommendationAbstained := by
  decide +kernel

/-- A batch that lapses between the clocks is confirmed as one that abstains. -/
theorem sampleRelease_agrees :
    (confirmed (command .accepted (2 * day)) day (3 * day)).disposition =
      .recommendationAbstained := by
  obtain ⟨hfrozen, hdirect⟩ := lapses_spec
  have hagrees := (finalize_agrees_with_freeze calendars (command .accepted (2 * day)) calibration
    (show day ≤ 3 * day by decide)).2.2.1
  have hne : (frozen (command .accepted (2 * day)) day).disposition ≠ .recommendationAbstained := by
    rw [hfrozen]
    decide
  exact (hagrees hne (fun h => absurd h (by decide))).disposition.trans hdirect

/-- A batch that was frozen before its knowledge stays failed, and one that failed keeps the
statuses of its own clock. -/
theorem sampleRelease_differs :
    (frozen (command .accepted (2 * day)) 0).disposition = .failed ∧
    (confirmed (command .accepted (2 * day)) 0 day).disposition = .failed ∧
    (frozen (command .accepted (2 * day)) day).disposition = .candidates ∧
    (frozen (command .failed (2 * day)) day).disposition = .failed ∧
    (confirmed (command .failed (2 * day)) day (3 * day)).members.map
      (·.marketStateQualificationStatus) = [.valid] ∧
    (frozen (command .failed (2 * day)) (3 * day)).members.map
      (·.marketStateQualificationStatus) = [.notQualified] := by
  decide +kernel

end SampleRelease

end StockProfiler.CandidateSelection
