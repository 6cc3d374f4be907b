import StockProfiler.Core.Snapshots
import StockProfiler.Evaluation.ExitRuns
import StockProfiler.Evaluation.OutcomeRuns

/-!
# Populations of exits

An evaluation of exits takes its positions from all reports of standard outcomes that its cutoff
sees. A later report replaces a position that it lists in the months of the policy; a position that
it has moved or dropped stays as it was. The population is that of the latest reports exactly when
there is no such position.
-/

namespace StockProfiler.Evaluation

/-- What the service commits: a case, or an exit evaluation. -/
inductive ServiceInput where
  | outcomes (input : EvaluationInput)
  | exit (decisionEventId businessObjectId : String) (accessScope : DecisionCases.ResultAccessScope)
      (command : ExitCommand) (committedAt : Instant)

section Service

variable (digest : String → String) (standards : String → Option StandardCalendar)
  (calendars : String → Option OrderedCalendar) (monthOf : Instant → String)
  (summarize : List ExitPositionResult → ExitPolicy → ℤ → Instant → Except String String)

/-- The event of an input, if it is accepted. -/
def serviceEventOf (ledger : List ExitEvent) : ServiceInput → Option ExitEvent
  | .outcomes input =>
    (commitEvaluation digest standards (ledger.map (·.toEvaluationEvent)) input).map
      fun event => { toEvaluationEvent := event }
  | .exit decisionEventId businessObjectId accessScope command committedAt =>
    exitEventOf calendars monthOf summarize ledger
      (.exit decisionEventId businessObjectId accessScope command committedAt)

/-- The ledger after an input; an identity is committed once. -/
def appendService (ledger : List ExitEvent) (input : ServiceInput) : List ExitEvent :=
  match serviceEventOf digest standards calendars monthOf summarize ledger input with
  | none => ledger
  | some event =>
    if event.decisionEventId ∈ ledger.map (·.decisionEventId) then ledger else ledger ++ [event]

/-- The ledger that inputs leave, one after another. -/
def serviceLedger (inputs : List ServiceInput) : List ExitEvent :=
  inputs.foldl (appendService digest standards calendars monthOf summarize) []

end Service

section Runs

variable {digest : String → String} {standards : String → Option StandardCalendar}
  {calendars : String → Option OrderedCalendar} {monthOf : Instant → String}
  {summarize : List ExitPositionResult → ExitPolicy → ℤ → Instant → Except String String}
  {ledger : List ExitEvent} {event : ExitEvent}

/-- For standard outcomes an exit evaluation is a case without a result. -/
theorem commitEvaluation_exit {accessScope : DecisionCases.ResultAccessScope}
    {command : ExitCommand} {decisionEventId businessObjectId : String} {committedAt : Instant}
    {events : List EvaluationEvent}
    (hnew : ¬∃ event ∈ events, event.decisionEventId = decisionEventId) :
    commitEvaluation digest standards events
        { decisionEventId, businessObjectId, case := exitCase accessScope command, committedAt } =
      some {
        decisionEventId
        businessObjectId
        case := exitCase accessScope command
        result := {}
        committedAt } := by
  unfold commitEvaluation
  rw [if_neg hnew]
  rfl

/-- An input keeps the ledger of standard outcomes sound. -/
theorem LedgerSound.appendService
    (h : LedgerSound digest standards (ledger.map (·.toEvaluationEvent))) (input : ServiceInput) :
    LedgerSound digest standards
      ((Evaluation.appendService digest standards calendars monthOf summarize ledger input).map
        (·.toEvaluationEvent)) := by
  unfold Evaluation.appendService
  split
  · exact h
  · rename_i event hevent
    split
    · exact h
    · rename_i hnew
      rw [List.map_append, List.map_singleton]
      cases input with
      | outcomes input =>
        obtain ⟨committed, hcommitted, rfl⟩ := Option.map_eq_some_iff.mp hevent
        exact h.snoc hcommitted
      | exit decisionEventId businessObjectId accessScope command committedAt =>
        unfold serviceEventOf exitEventOf at hevent
        dsimp only at hevent
        split at hevent
        · exact nomatch hevent
        · cases hevent
          refine h.snoc (commitEvaluation_exit ?_)
          rintro ⟨other, hother, hid⟩
          refine hnew ?_
          obtain ⟨found, hfound, rfl⟩ := List.mem_map.mp hother
          exact List.mem_map.mpr ⟨found, hfound, hid⟩

/-- Whatever the service commits, its ledger of standard outcomes is sound. -/
theorem ledgerSound_serviceLedger (inputs : List ServiceInput) :
    LedgerSound digest standards
      ((serviceLedger digest standards calendars monthOf summarize inputs).map
        (·.toEvaluationEvent)) := by
  induction inputs using List.reverseRecOn with
  | nil => exact ledgerSound_evaluationLedger digest standards []
  | append_singleton inputs input ih =>
    rw [serviceLedger, List.foldl_append, ← serviceLedger, List.foldl_cons, List.foldl_nil]
    exact ih.appendService input

end Runs

section Sources

variable {digest : String → String} {standards : String → Option StandardCalendar}
  {events earlier : List EvaluationEvent} {event source : EvaluationEvent} {saved : SavedOutcomes}
  {position : StandardExitPosition}

/-- No two events register one evaluation identity. -/
def RegisteredOnce (digest : String → String) (events : List EvaluationEvent) : Prop :=
  ∀ event ∈ events, ∀ other ∈ events, ∀ registration ∈ retainedRegistrations digest event,
    ∀ another ∈ retainedRegistrations digest other,
      registration.evaluationId = another.evaluationId →
        event.decisionEventId = other.decisionEventId

/-- A research event that is found is found in every longer ledger. -/
theorem researchOf_grown {command : CandidateSelection.CandidateReleaseCommand}
    {research : EvaluationEvent × String} (hgrown : earlier <+: events)
    (h : researchOf earlier command = some research) :
    researchOf events command = some research := by
  obtain ⟨found, hfound, hselection⟩ := bind_eq_some.mp h
  exact bind_eq_some.mpr ⟨found, getDecisionEvent_of_prefix hgrown hfound, hselection⟩

theorem lifecycle_of_exitPosition? {cutoff : Instant} {member : EvaluationMember}
    (h : exitPosition? cutoff member = some position) :
    member.population = .candidate ∧
      position.lifecycleId = "standard-exit:" ++ member.evaluationId := by
  obtain ⟨_, hguard, h⟩ := bind_eq_some.mp h
  obtain ⟨_, -, h⟩ := bind_eq_some.mp h
  obtain ⟨_, -, h⟩ := bind_eq_some.mp h
  cases h
  have hpopulation : member.population = .candidate ∧ member.entryExpired = false := by
    by_contra hne
    rw [guard, if_neg hne] at hguard
    exact nomatch hguard
  exact ⟨hpopulation.1, rfl⟩

theorem visibleRelease_spec {case : EvaluationCase} {command : StandardOutcomeCommand}
    {release : EvaluationEvent × CandidateSelection.CandidateReleaseCommand}
    (h : release ∈ visibleReleases case command events source) :
    release.1 ∈ events ∧ release.1.case.candidateRelease = some release.2 ∧
      releaseOfSource command source release = true := by
  obtain ⟨hhistory, hvisible⟩ := List.mem_filter.mp h
  obtain ⟨event, hevent, hrelease⟩ := List.mem_filterMap.mp hhistory
  rw [Bool.and_eq_true] at hvisible
  split at hrelease
  · obtain ⟨command, hcommand, rfl⟩ := Option.map_eq_some_iff.mp hrelease
    exact ⟨hevent, hcommand, hvisible.1⟩
  · exact nomatch hrelease

/-- A reported position is that of a release which belongs to the source of the report. -/
theorem Reported.release (h : Reported digest standards earlier event saved source)
    (hids : (earlier.map (·.decisionEventId)).Nodup)
    (hposition : position ∈ saved.report.exitPositions) :
    ∃ release ∈ earlier, ∃ command research, release.case.candidateRelease = some command ∧
      researchOf earlier command = some (research, saved.command.sourceEventId) ∧
      ∃ registration ∈ retainedRegistrations digest release,
        position.lifecycleId = "standard-exit:" ++ registration.evaluationId := by
  obtain ⟨history, a, hreport, havailable⟩ := h.assessed
  have hsourceId : source.decisionEventId = saved.command.sourceEventId := by
    have hfound := List.find?_some h.source_eq
    exact of_decide_eq_true hfound
  rw [hreport] at hposition
  obtain ⟨member, hmember, hexit⟩ := List.mem_filterMap.mp hposition
  obtain ⟨hcandidate, hlifecycle⟩ := lifecycle_of_exitPosition? hexit
  obtain ⟨registration, hregistration, hreports⟩ :=
    forall₂_mem_right (Assessment.reports_members havailable) hmember
  have hevaluation : member.evaluationId = registration.evaluationId :=
    congrArg Prod.fst hreports.identity
  have hpopulation : member.population = registration.population :=
    congrArg (fun identity => identity.2.1) hreports.identity
  rcases List.mem_append.mp hregistration with hselected | hreleased
  · -- The registrations of the source itself are not candidates.
    split at hselected
    · have hselection := of_decide_eq_true (List.mem_filter.mp hselected).2
      rw [← hpopulation, hcandidate] at hselection
      exact nomatch hselection
    · exact nomatch hselected
  · obtain ⟨release, hrelease, hregistration⟩ := List.mem_flatMap.mp hreleased
    by_cases hselection : saved.command.selectionEventId.isSome = true
    · obtain ⟨visible, hvisible, rfl, hbelongs⟩ :=
        (mem_sourceReleases hselection a.releases_eq).mp hrelease
      obtain ⟨hmem, hcommand, -⟩ := visibleRelease_spec hvisible
      unfold releaseBelongsToSelection at hbelongs
      cases hresearch : researchOf earlier visible.2 with
      | none =>
        rw [hresearch] at hbelongs
        obtain ⟨_, hnone, -⟩ := bind_eq_ok.mp hbelongs
        rw [require_eq_ok.mp hnone] at hregistration
        exact nomatch hregistration
      | some research =>
        obtain ⟨research, selectionEventId⟩ := research
        rw [hresearch] at hbelongs
        obtain ⟨_, -, hbelongs⟩ := bind_eq_ok.mp hbelongs
        have hsame : selectionEventId = source.decisionEventId :=
          of_decide_eq_true (Except.ok.inj hbelongs)
        rw [hsame, hsourceId] at hresearch
        exact ⟨visible.1, hmem, visible.2, research, hcommand, hresearch, registration,
          hregistration, hevaluation ▸ hlifecycle⟩
    · -- A candidate release that is its own source has no registrations.
      have hcandidateId : saved.command.candidateEventId.isSome = true := by
        have hvalid := saved.command.source_valid
        rw [Bool.eq_false_iff.mpr hselection] at hvalid
        exact Bool.eq_true_of_not_eq_false hvalid.symm
      have hreleases := a.releases_eq
      unfold sourceReleases at hreleases
      dsimp only at hreleases
      rw [if_neg hselection] at hreleases
      have hreleases := Except.ok.inj hreleases
      rw [← hreleases] at hrelease
      obtain ⟨visible, hvisible, rfl⟩ := List.mem_map.mp hrelease
      obtain ⟨hmem, -, hof⟩ := visibleRelease_spec hvisible
      obtain ⟨candidateEventId, hid⟩ := Option.isSome_iff_exists.mp hcandidateId
      unfold releaseOfSource at hof
      rw [hid] at hof
      have hnone : saved.command.selectionEventId = none :=
        Option.not_isSome_iff_eq_none.mp hselection
      have hsame : visible.1 = source := by
        refine List.inj_on_of_nodup_map hids hmem (List.mem_of_find?_eq_some h.source_eq) ?_
        rw [of_decide_eq_true hof, hsourceId, StandardOutcomeCommand.sourceEventId, hnone, hid]
        rfl
      rw [hsame, a.registrations_eq hcandidateId] at hregistration
      exact nomatch hregistration

/-- Reports that list one lifecycle are of one source. -/
theorem LedgerSound.source_of_lifecycle (h : LedgerSound digest standards events)
    (honce : RegisteredOnce digest events) {other : EvaluationEvent} {another : SavedOutcomes}
    {position' : StandardExitPosition} (hevent : event ∈ events)
    (horiginal : event.correctsEventId = none) (hsaved : event.outcomes? = some saved)
    (hposition : position ∈ saved.report.exitPositions) (hother : other ∈ events)
    (horiginal' : other.correctsEventId = none) (hanother : other.outcomes? = some another)
    (hposition' : position' ∈ another.report.exitPositions)
    (hsame : position.lifecycleId = position'.lifecycleId) :
    saved.command.sourceEventId = another.command.sourceEventId := by
  obtain ⟨earlier, hgrown, hreported⟩ := h.reported.of_mem hevent
  obtain ⟨source, hreported⟩ := hreported horiginal saved hsaved
  obtain ⟨earlier', hgrown', hreported'⟩ := h.reported.of_mem hother
  obtain ⟨source', hreported'⟩ := hreported' horiginal' another hanother
  have hids : (earlier.map (·.decisionEventId)).Nodup :=
    h.identities.sublist (hgrown.sublist.map _)
  have hids' : (earlier'.map (·.decisionEventId)).Nodup :=
    h.identities.sublist (hgrown'.sublist.map _)
  obtain ⟨release, hrelease, command, research, hcommand, hresearch, registration, hregistration,
    hlifecycle⟩ := hreported.release hids hposition
  obtain ⟨release', hrelease', command', research', hcommand', hresearch', registration',
    hregistration', hlifecycle'⟩ := hreported'.release hids' hposition'
  have hevaluation : registration.evaluationId = registration'.evaluationId := by
    rw [hlifecycle, hlifecycle'] at hsame
    exact String.append_right_inj _ |>.mp hsame
  have hid := honce release (hgrown.subset hrelease) release' (hgrown'.subset hrelease')
    registration hregistration registration' hregistration' hevaluation
  obtain rfl := List.inj_on_of_nodup_map h.identities (hgrown.subset hrelease)
    (hgrown'.subset hrelease') hid
  obtain rfl := Option.some.inj (hcommand.symm.trans hcommand')
  have hfound := (researchOf_grown hgrown hresearch).symm.trans
    (researchOf_grown hgrown' hresearch')
  exact congrArg Prod.snd (Option.some.inj hfound)

end Sources

/-- The reports that an evaluation sees under the calendar of its policy. -/
def visibleReports (ledger : List ExitEvent) (case : EvaluationCase) (command : ExitCommand)
    (policy : ExitPolicy) : List SavedOutcomes :=
  ((standardEvaluationHistory (ledger.map (·.toEvaluationEvent)) case).filterMap
    (·.outcomes?)).filter fun saved =>
      saved.report.cutoffAt ≤ command.cutoffAt ∧ saved.committedAt ≤ command.cutoffAt ∧
        saved.command.marketCalendarVersion = policy.marketCalendarVersion

/-- The positions of a report that were entered in the months of a policy, with their quantity. -/
def enteredPositions (monthOf : Instant → String) (policy : ExitPolicy) (saved : SavedOutcomes) :
    List (StandardExitPosition × ℚ) :=
  (saved.report.exitPositions.filter fun position =>
    policy.startMonth ≤ monthOf position.entryAt ∧
      monthOf position.entryAt ≤ policy.endMonth).map (·, saved.command.standardQuantity)

/-- The positions of the latest reports of all sources. -/
def latestPositions (monthOf : Instant → String) (ledger : List ExitEvent) (case : EvaluationCase)
    (command : ExitCommand) (policy : ExitPolicy) : List (StandardExitPosition × ℚ) :=
  (lastSnapshots (·.command.sourceEventId) (visibleReports ledger case command policy)).flatMap
    (enteredPositions monthOf policy)

/-- A position without what its evaluation finds out. -/
def StandardExitPosition.asEntered (position : StandardExitPosition) : StandardExitPosition :=
  { position with currentExposure := position.initialExposure, state := .pending }

/-- What an evaluation takes from a report: a position and its quantity. -/
def ExitPositionResult.asEntered (result : ExitPositionResult) : StandardExitPosition × ℚ :=
  (result.toStandardExitPosition.asEntered, result.initialQuantity)

/-- The evaluated positions are those of the latest reports, each once, and are counted so. -/
structure FollowsLatest (monthOf : Instant → String) (ledger : List ExitEvent)
    (case : EvaluationCase) (command : ExitCommand) (report : ExitReport) : Prop where
  positions : (report.positions.map (·.asEntered)).Perm
    ((latestPositions monthOf ledger case command report.policy).map fun entered =>
      (entered.1.asEntered, entered.2))
  registered : ∃ counts ∈ report.counts,
    counts.registered = (latestPositions monthOf ledger case command report.policy).length ∧
    counts.due = (latestPositions monthOf ledger case command report.policy).countP
      (·.1.maturesAt ≤ command.cutoffAt)

section Evaluated

variable {saved : SavedOutcomes} {digest : String → String}
  {standards : String → Option StandardCalendar} {calendars : String → Option OrderedCalendar}
  {monthOf : Instant → String}
  {summarize : List ExitPositionResult → ExitPolicy → ℤ → Instant → Except String String}
  {ledger : List ExitEvent} {case : EvaluationCase} {command : ExitCommand} {policy : ExitPolicy}
  {report : ExitReport}

theorem event_of_visibleReports (h : saved ∈ visibleReports ledger case command policy) :
    ∃ event ∈ ledger.map (·.toEvaluationEvent), event.correctsEventId = none ∧
      event.outcomes? = some saved := by
  obtain ⟨event, hevent, hsaved⟩ := List.mem_filterMap.mp (List.mem_of_mem_filter h)
  obtain ⟨hmem, hhistory⟩ := List.mem_filter.mp hevent
  exact ⟨event, hmem, (of_decide_eq_true hhistory).1, hsaved⟩

theorem decisionEventId_of_outcomes? {event : EvaluationEvent} (h : event.outcomes? = some saved) :
    saved.decisionEventId = event.decisionEventId := by
  obtain ⟨_, -, h⟩ := bind_eq_some.mp h
  obtain ⟨_, -, h⟩ := bind_eq_some.mp h
  cases h
  rfl

/-- The visible reports are distinct, list a lifecycle once, and share none between sources. -/
theorem keyedBySource_visibleReports
    (h : LedgerSound digest standards (ledger.map (·.toEvaluationEvent)))
    (honce : RegisteredOnce digest (ledger.map (·.toEvaluationEvent))) :
    KeyedBySource (·.command.sourceEventId) (enteredPositions monthOf policy) (·.1.lifecycleId)
      (visibleReports ledger case command policy) where
  nodup := by
    have hids : List.Sublist ((visibleReports ledger case command policy).map (·.decisionEventId))
        ((ledger.map (·.toEvaluationEvent)).map (·.decisionEventId)) :=
      (List.filter_sublist.map _).trans ((Dict.map_filterMap_sublist fun _ _ _ =>
        decisionEventId_of_outcomes?).trans (List.filter_sublist.map _))
    exact .of_map _ (h.identities.sublist hids)
  keys saved hsaved := by
    obtain ⟨event, hevent, horiginal, houtcomes⟩ := event_of_visibleReports hsaved
    have hchain : saved ∈ outcomeChain (ledger.map (·.toEvaluationEvent))
        saved.command.sourceEventId :=
      List.mem_filter.mpr ⟨List.mem_filterMap.mpr ⟨event, List.mem_filter.mpr ⟨hevent,
        decide_eq_true horiginal⟩, houtcomes⟩, decide_eq_true rfl⟩
    obtain ⟨earlier, -, hreported⟩ := h.reported.of_mem hevent
    obtain ⟨source, hreported⟩ := hreported horiginal saved houtcomes
    obtain ⟨history, a, hreport, -⟩ := hreported.assessed
    have hidentities := ((h.chains saved.command.sourceEventId).reports saved hchain).identities
    have hlifecycles : (saved.report.exitPositions.map (·.lifecycleId)).Nodup := by
      rw [hreport] at hidentities ⊢
      have hprefixed :
          (a.members.map fun member => "standard-exit:" ++ member.evaluationId).Nodup := by
        have hmapped := hidentities.map
          (f := fun id => "standard-exit:" ++ id) fun _ _ => (String.append_right_inj _).mp
        rwa [List.map_map] at hmapped
      exact hprefixed.sublist (Dict.map_filterMap_sublist fun _ _ _ hexit =>
        (lifecycle_of_exitPosition? hexit).2)
    have hmap : (enteredPositions monthOf policy saved).map (·.1.lifecycleId) =
        (saved.report.exitPositions.filter fun position =>
          policy.startMonth ≤ monthOf position.entryAt ∧
            monthOf position.entryAt ≤ policy.endMonth).map (·.lifecycleId) := by
      rw [enteredPositions, List.map_map]
      rfl
    rw [hmap]
    exact hlifecycles.sublist (List.filter_sublist.map _)
  own saved hsaved another hanother entered hentered other hother hsame := by
    obtain ⟨event, hevent, horiginal, houtcomes⟩ := event_of_visibleReports hsaved
    obtain ⟨event', hevent', horiginal', houtcomes'⟩ := event_of_visibleReports hanother
    obtain ⟨position, hposition, rfl⟩ := List.mem_map.mp hentered
    obtain ⟨position', hposition', rfl⟩ := List.mem_map.mp hother
    exact h.source_of_lifecycle honce hevent horiginal houtcomes (List.mem_of_mem_filter hposition)
      hevent' horiginal' houtcomes' (List.mem_of_mem_filter hposition') hsame

variable (hoperation : command.operation = .evaluate)
  (h : assessExitEvaluation calendars monthOf summarize ledger case command = .ok report)
include hoperation h

/-- An evaluation evaluates what it has accumulated over all visible reports. -/
theorem evaluated_of_assessExitEvaluation :
    report.positions.map (·.asEntered) =
        ((accumulated (enteredPositions monthOf report.policy) (·.1.lifecycleId)
          (visibleReports ledger case command report.policy)).map Prod.snd).map
            (fun entered => (entered.1.asEntered, entered.2)) ∧
      report.counts = some (exitCounts command report.positions) := by
  unfold assessExitEvaluation at h
  rw [hoperation] at h
  obtain ⟨policy, -, h⟩ := bind_eq_ok.mp h
  unfold evaluateExits at h
  dsimp only at h
  obtain ⟨_, -, h⟩ := bind_eq_ok.mp h
  obtain ⟨_, -, h⟩ := bind_eq_ok.mp h
  obtain ⟨positions, hpositions, h⟩ := bind_eq_ok.mp h
  obtain ⟨disposition, -, h⟩ := bind_eq_ok.mp h
  cases h
  refine ⟨?_, rfl⟩
  rw [List.map_map]
  refine Eq.symm (List.forall₂_eq_eq_eq ▸ ?_)
  refine List.forall₂_map_left_iff.mpr (List.forall₂_map_right_iff.mpr ?_)
  refine (mapM_eq_ok.mp hpositions).imp fun _ _ hresult => ?_
  obtain ⟨⟨state, exposure, hposition⟩, hquantity, -⟩ := result_of_evaluateExitPosition hresult
  exact Prod.ext (congrArg StandardExitPosition.asEntered hposition).symm hquantity.symm

/-- When nothing is dropped, the latest reports are evaluated. -/
theorem followsLatest_of_dropsNone
    (hkeyed : KeyedBySource (·.command.sourceEventId) (enteredPositions monthOf report.policy)
      (·.1.lifecycleId) (visibleReports ledger case command report.policy))
    (hdrops : DropsNone (·.command.sourceEventId) (enteredPositions monthOf report.policy)
      (·.1.lifecycleId) (visibleReports ledger case command report.policy)) :
    FollowsLatest monthOf ledger case command report := by
  obtain ⟨hpositions, hcounts⟩ := evaluated_of_assessExitEvaluation hoperation h
  have hperm := (hkeyed.accumulated_perm hdrops).map
    fun entered => (entered.1.asEntered, entered.2)
  rw [← hpositions] at hperm
  refine ⟨hperm, _, Option.mem_def.mpr hcounts, ?_, ?_⟩
  · have hlength := hperm.length_eq
    rw [List.length_map, List.length_map] at hlength
    exact hlength
  · have hdue := hperm.countP_eq fun entered => decide (entered.1.maturesAt ≤ command.cutoffAt)
    rw [List.countP_map, List.countP_map] at hdue
    exact hdue

/-- When the latest reports are evaluated, nothing was dropped. -/
theorem dropsNone_of_followsLatest
    (hkeyed : KeyedBySource (·.command.sourceEventId) (enteredPositions monthOf report.policy)
      (·.1.lifecycleId) (visibleReports ledger case command report.policy))
    (hfollows : FollowsLatest monthOf ledger case command report) :
    DropsNone (·.command.sourceEventId) (enteredPositions monthOf report.policy)
      (·.1.lifecycleId) (visibleReports ledger case command report.policy) := by
  refine hkeyed.dropsNone fun entered hentered => ?_
  have hperm := hfollows.positions
  rw [(evaluated_of_assessExitEvaluation hoperation h).1] at hperm
  obtain ⟨other, hother, hsame⟩ := List.mem_map.mp
    (hperm.mem_iff.mp (List.mem_map_of_mem hentered))
  refine List.mem_map.mpr ⟨other, hother, ?_⟩
  exact congrArg (fun evaluated => evaluated.1.lifecycleId) hsame

end Evaluated

/-- Whatever the service commits, an accepted evaluation follows the latest reports exactly when no
lifecycle that a visible report has in the months of the policy is missing there in the latest
visible report of its source. -/
theorem evaluate_followsLatest_iff (digest : String → String)
    (standards : String → Option StandardCalendar) (calendars : String → Option OrderedCalendar)
    (monthOf : Instant → String)
    (summarize : List ExitPositionResult → ExitPolicy → ℤ → Instant → Except String String)
    (inputs : List ServiceInput) (case : EvaluationCase) (command : ExitCommand)
    (report : ExitReport) (hoperation : command.operation = .evaluate)
    (honce : RegisteredOnce digest
      ((serviceLedger digest standards calendars monthOf summarize inputs).map
        (·.toEvaluationEvent))) (h : assessExitEvaluation calendars monthOf summarize
      (serviceLedger digest standards calendars monthOf summarize inputs) case command =
        .ok report) :
    FollowsLatest monthOf (serviceLedger digest standards calendars monthOf summarize inputs) case
        command report ↔
      ∀ earlier ∈ visibleReports
          (serviceLedger digest standards calendars monthOf summarize inputs) case command
          report.policy,
        ∀ entered ∈ enteredPositions monthOf report.policy earlier,
          ∃ latest ∈ lastOf (·.command.sourceEventId) (visibleReports
              (serviceLedger digest standards calendars monthOf summarize inputs) case command
              report.policy) earlier.command.sourceEventId,
            entered.1.lifecycleId ∈
              (enteredPositions monthOf report.policy latest).map (·.1.lifecycleId) := by
  have hkeyed : KeyedBySource (·.command.sourceEventId) (enteredPositions monthOf report.policy)
      (·.1.lifecycleId) (visibleReports
        (serviceLedger digest standards calendars monthOf summarize inputs) case command
        report.policy) :=
    keyedBySource_visibleReports (ledgerSound_serviceLedger inputs) honce
  exact ⟨dropsNone_of_followsLatest hoperation h hkeyed,
    followsLatest_of_dropsNone hoperation h hkeyed⟩

namespace SamplePopulations

open SampleOutcomes (session suspended)

/-- Years of the sample are not told apart; the policy is registered in the month before. -/
def monthOf (instant : Instant) : String := if instant < 0 then "1969-12" else "1970-01"

def summarize (_ : List ExitPositionResult) (_ : ExitPolicy) (_ : ℤ) (_ : Instant) :
    Except String String := .ok "RECORDED"

def policy : ExitPolicy :=
  { SampleExits.policy with marketCalendarVersion := "synthetic-market-calendar-v1" }

def register : ExitCommand where
  operation := .register
  seed := 0
  cutoffAt := -1
  policy := some policy
  observations := []
  observations_nodup := List.nodup_nil

def research : EvaluationInput where
  decisionEventId := "research"
  businessObjectId := "research-object"
  case := {
    accessScope := some SampleOutcomes.scope
    knowledgeCutoff := 0
    researchSelectionEventId := some "selection" }
  committedAt := 0

def releaseCommand : CandidateSelection.CandidateReleaseCommand where
  batchId := "batch"
  capabilityVersion := "1"
  researchObjectId := "research-object"
  researchEventId := "research"
  knowledgeCutoff := 0
  publishedAt := 0
  lastCompletedMarketSessionSequence := 0
  marketState := .bull
  marketCalendarVersion := "synthetic-market-calendar-v1"
  calibratorVersion := "1"
  candidates := []
  marketSessions := []

def member : CandidateSelection.CalibratedMember where
  securityId := "security"
  researchId := "research-1"
  rawSuccessScore := 1
  calibratedProbability := some (3 / 4)
  candidate := true
  riskStatus := .accepted
  marketStateQualified := true
  marketStateQualificationStatus := .valid
  dataComplete := true
  validMarketDates := []
  reasons := []

def release : EvaluationInput where
  decisionEventId := "release"
  businessObjectId := "release"
  case := {
    accessScope := some SampleOutcomes.scope
    knowledgeCutoff := 0
    candidateRelease := some releaseCommand }
  candidateRelease := some {
    batchId := "batch"
    disposition := .candidates
    knowledgeCutoff := 0
    publishedAt := 0
    capabilityVersion := "1"
    researchObjectId := "research-object"
    researchEventId := "research"
    marketCalendarVersion := "synthetic-market-calendar-v1"
    marketState := .bull
    members := [member]
    population := ⟨true, true, true, none⟩
    validMarketDates := []
    reasons := [] }
  committedAt := 0

def correction : OutcomeEvidence :=
  { OutcomeEvidence.immediate "corrected" (session 6).closedAt with
    sourceVersion := "2"
    correctsEvidenceId := some "entry"
    correctionReason := some "sessions"
    corrects_iff := by decide }

/-- The entry is corrected: nothing could be bought in any of the five sessions. -/
def allSuspended : EntryEvidence :=
  { correction with sessions := [2, 3, 4, 5, 6].map suspended }

/-- The entry is corrected: the candidate was bought in the second session, at another price. -/
def repriced : EntryEvidence :=
  { correction with
    sessions := [
      suspended 2,
      { SampleOutcomes.bought with turnover := 1100, buyable_valid := by decide }] }

variable (corrected : EntryEvidence)

/-- The candidate is bought in the second session; its entry is then corrected. -/
def inputs : List ServiceInput := [
  .exit "register" "register" SampleOutcomes.scope register (-1),
  .outcomes SampleOutcomes.selection,
  .outcomes research,
  .outcomes release,
  .outcomes (SampleOutcomes.report "first" none 3 (some SampleOutcomes.entry) none),
  .outcomes (SampleOutcomes.report "second" (some "first") 6 (some corrected) none)]

def ledger : List ExitEvent :=
  serviceLedger id (fun _ => some SampleOutcomes.calendar) (fun _ => none) monthOf summarize
    (inputs corrected)

def evaluate : ExitCommand where
  operation := .evaluate
  seed := 0
  cutoffAt := (session 6).closedAt + 1
  registrationEventId := some "register"
  observations := []
  observations_nodup := List.nodup_nil

def evaluateCase : EvaluationCase := exitCase SampleOutcomes.scope evaluate

def evaluation : Except String ExitReport :=
  assessExitEvaluation (fun _ => none) monthOf summarize (ledger corrected) evaluateCase evaluate

/-- Whether the latest reports keep what the earlier ones have. -/
def keepsAll : Bool :=
  (visibleReports (ledger corrected) evaluateCase evaluate policy).all fun earlier =>
    (enteredPositions monthOf policy earlier).all fun entered =>
      (lastOf (·.command.sourceEventId)
        (visibleReports (ledger corrected) evaluateCase evaluate policy)
        earlier.command.sourceEventId).any fun latest =>
          entered.1.lifecycleId ∈ (enteredPositions monthOf policy latest).map (·.1.lifecycleId)

/-- Whether one position is evaluated, which is entered in the second session. -/
def EvaluatesEntry : Prop :=
  ((evaluation corrected).toOption.map fun report =>
    (report.policy, report.positions.map (·.entryAt))) = some (policy, [(session 3).closedAt])

theorem allSuspended_spec : EvaluatesEntry allSuspended ∧
    latestPositions monthOf (ledger allSuspended) evaluateCase evaluate policy = [] ∧
    keepsAll allSuspended = false := by
  unfold EvaluatesEntry
  decide +kernel

theorem repriced_spec : EvaluatesEntry repriced ∧ keepsAll repriced = true := by
  unfold EvaluatesEntry
  decide +kernel

theorem registeredOnce :
    RegisteredOnce id ((ledger allSuspended).map (·.toEvaluationEvent)) ∧
      RegisteredOnce id ((ledger repriced).map (·.toEvaluationEvent)) := by
  unfold RegisteredOnce
  decide +kernel

variable {corrected}

theorem EvaluatesEntry.report (h : EvaluatesEntry corrected) :
    ∃ report, evaluation corrected = .ok report ∧ report.policy = policy ∧
      report.positions.length = 1 := by
  unfold EvaluatesEntry at h
  cases hevaluation : evaluation corrected with
  | error reason =>
    rw [hevaluation] at h
    exact nomatch h
  | ok report =>
    rw [hevaluation] at h
    obtain ⟨hpolicy, hentries⟩ := Prod.mk.inj (Option.some.inj h)
    refine ⟨report, rfl, hpolicy, ?_⟩
    have hlength := congrArg List.length hentries
    rwa [List.length_map] at hlength

/-- The latest report has no position, and one is evaluated. -/
theorem evaluates_stalePosition :
    ¬∀ digest standards calendars monthOf summarize inputs case command report,
      command.operation = .evaluate →
      RegisteredOnce digest
        ((serviceLedger digest standards calendars monthOf summarize inputs).map
          (·.toEvaluationEvent)) →
      assessExitEvaluation calendars monthOf summarize
        (serviceLedger digest standards calendars monthOf summarize inputs) case command =
          .ok report →
      FollowsLatest monthOf (serviceLedger digest standards calendars monthOf summarize inputs)
        case command report := by
  intro hall
  obtain ⟨report, hreport, hpolicy, hlength⟩ := allSuspended_spec.1.report
  have hfollows := (hall id _ _ monthOf summarize (inputs allSuspended) _ evaluate report rfl
    registeredOnce.1 hreport).positions.length_eq
  rw [List.length_map, List.length_map, hlength, hpolicy] at hfollows
  have hnone := congrArg List.length allSuspended_spec.2.1
  exact absurd (hfollows.trans hnone) (by decide)

/-- An evaluation does not follow the latest report when its correction drops what the first report
had, and follows it when the correction keeps that. -/
theorem sample_followsLatest :
    (∃ report, evaluation allSuspended = .ok report ∧
      ¬FollowsLatest monthOf (ledger allSuspended) evaluateCase evaluate report) ∧
    ∃ report, evaluation repriced = .ok report ∧
      FollowsLatest monthOf (ledger repriced) evaluateCase evaluate report := by
  obtain ⟨report, hreport, hpolicy, -⟩ := allSuspended_spec.1.report
  obtain ⟨other, hother, hotherPolicy, -⟩ := repriced_spec.1.report
  have hiff := evaluate_followsLatest_iff id (fun _ => some SampleOutcomes.calendar)
    (fun _ => none) monthOf summarize
  refine ⟨⟨report, hreport, fun hfollows => ?_⟩, other, hother,
    (hiff (inputs repriced) _ evaluate other rfl registeredOnce.2 hother).mpr ?_⟩
  · have hkept := (hiff (inputs allSuspended) _ evaluate report rfl registeredOnce.1 hreport).mp
      hfollows
    rw [hpolicy] at hkept
    have hall : keepsAll allSuspended = true :=
      List.all_eq_true.mpr fun earlier hearlier => List.all_eq_true.mpr fun entered hentered =>
        (Option.any_eq_true _ _).mpr ((hkept earlier hearlier entered hentered).imp
          fun _ => And.imp_right decide_eq_true)
    exact nomatch allSuspended_spec.2.2.symm.trans hall
  · rw [hotherPolicy]
    intro earlier hearlier entered hentered
    have hall := List.all_eq_true.mp (List.all_eq_true.mp repriced_spec.2 earlier hearlier) entered
      hentered
    exact ((Option.any_eq_true _ _).mp hall).imp fun _ => And.imp_right of_decide_eq_true

end SamplePopulations

end StockProfiler.Evaluation
