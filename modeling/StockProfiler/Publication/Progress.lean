import StockProfiler.Publication.Consistency

/-!
# What every transaction keeps

Whatever a transaction of an attempt reads, and however its commit ends, rows are only
appended, they still fit each other, and the attempt holds on to what is saved.
-/

namespace StockProfiler.Publication

open CandidateSelection Qualification

/-- What a transaction of an attempt keeps. -/
structure Progresses (contracts : HostContracts) (request : Phase) (ledger : DecisionLedger)
    (result : DecisionLedger × Phase) : Prop where
  grows : ledger.Grows result.1
  consistent : Consistent contracts result.1
  holds : result.2.Holds contracts result.1
  serves : Phase.Serves request result.2

section Progress

variable {command : CandidateReleaseCommand} {clocks : ReleaseClocks} {source : ReleaseSource}
  {case : FrozenDecisionCase} {report : FormalReport} {contracts : HostContracts}
  {request phase : Phase} {ledger after : DecisionLedger} {input : TransactionInput}
  {fact : DecisionEventFact} {id : String}

theorem Progresses.stopped (hgrows : ledger.Grows after) (h : Consistent contracts after) :
    Progresses contracts request ledger (after, .stopped) :=
  ⟨hgrows, h, trivial, fun _ hobject => nomatch hobject⟩

variable (h : Consistent contracts ledger)

include h in
theorem Progresses.stay (hholds : phase.Holds contracts ledger)
    (hserves : Phase.Serves request phase) : Progresses contracts request ledger (ledger, phase) :=
  ⟨.refl ledger, h, hholds, hserves⟩

theorem Progresses.close (h : Progresses contracts request ledger (after, phase))
    (hledger : Consistent contracts ledger) (signal : CommitSignal) :
    Progresses contracts request ledger (Publication.close signal ledger after phase) := by
  cases signal with
  | acknowledged => exact h
  | lost => exact .stopped h.grows h.consistent
  | rolledBack => exact .stopped (.refl ledger) hledger

include h in
/-- Stages may be added, and the attempt goes on with what it holds. -/
theorem Progresses.addsStages (hadds : ledger.AddsStages after)
    (hholds : phase.Holds contracts after) (hserves : Phase.Serves request phase) :
    Progresses contracts request ledger (after, phase) :=
  ⟨hadds.grows, h.addsStages hadds, hholds, hserves⟩

theorem progresses_unpublished (hgrows : ledger.Grows after) (h : Consistent contracts after)
    (hrequest : request.Requests id) (status : BusinessCommitStatus) (stages : List StageResult) :
    Progresses contracts request ledger (after, .answered (.unpublished id status stages)) :=
  ⟨hgrows, h, trivial, fun _ hid' => Option.some.inj hid' ▸ hrequest⟩

theorem progresses_correctionFailed (hgrows : ledger.Grows after) (h : Consistent contracts after)
    (id : String) (status : BusinessCommitStatus) :
    Progresses contracts request ledger (after, .answered (.correctionFailed id status)) :=
  ⟨hgrows, h, trivial, fun _ hid' => nomatch hid'⟩

/-- The identity that a case resolves to is its own, or one of an earlier build. -/
theorem requests_of_resolve (h : ledger.resolveBusinessObjectId case = some id) :
    id = case.businessObjectId ∨ id ∈ case.recoveryBusinessObjectIds := by
  unfold DecisionLedger.resolveBusinessObjectId at h
  split at h
  · exact .inl (Option.some.inj h).symm
  · rename_i found hfilter
    obtain rfl := Option.some.inj h
    have hmem : found ∈ [found] := List.mem_singleton_self found
    rw [← hfilter] at hmem
    exact .inr (List.mem_of_mem_filter hmem)
  · exact nomatch h

theorem ensureBusinessObject_spec (h : ledger.ensureBusinessObject contracts case = some after) :
    after = ledger ∨ ledger.mapping? case.businessObjectId = none ∧
      after = { ledger with mappings := ledger.mappings ++ [case] } := by
  unfold DecisionLedger.ensureBusinessObject at h
  split at h
  · rename_i hnone
    exact .inr ⟨hnone, (Option.some.inj h).symm⟩
  · split at h
    · exact .inl (Option.some.inj h).symm
    · exact nomatch h

include h in
theorem Consistent.ensureBusinessObject
    (hensure : ledger.ensureBusinessObject contracts case = some after) :
    ledger.Grows after ∧ Consistent contracts after := by
  rcases ensureBusinessObject_spec hensure with rfl | ⟨-, rfl⟩
  · exact ⟨.refl _, h⟩
  · have hgrows := ledger.grows_addMapping case
    exact ⟨hgrows, h.events_nodup, fun fact hfact => (h.attempted fact hfact).grows hgrows,
      h.reports, h.reports_nodup⟩

include h in
theorem progresses_persistMapping (case : FrozenDecisionCase) :
    Progresses contracts (.requested case) ledger (persistMapping contracts ledger input case) := by
  unfold persistMapping
  split
  · exact .stopped (.refl ledger) h
  · rename_i id hresolve
    have hserves : Phase.Serves (.requested case) (.mapped id) := by
      intro other hother
      cases hother
      exact requests_of_resolve hresolve
    split
    · split
      · exact .stopped (.refl ledger) h
      · exact .stay h trivial hserves
      · split
        · exact .stopped (.refl ledger) h
        · rename_i after hensure
          obtain ⟨hgrows, hafter⟩ := h.ensureBusinessObject hensure
          have hmapped : Progresses contracts (.requested case) ledger (after, .mapped id) :=
            ⟨hgrows, hafter, trivial, hserves⟩
          exact hmapped.close h _
    · exact .stay h trivial hserves

theorem lookUp_eq_some {found : LookUp} (h : lookUp contracts ledger id = some found) :
    match found with
    | .report report => ledger.originalFormalReport contracts id = some (some report)
    | .event fact => ledger.originalFormalReport contracts id = some none ∧
        fact ∈ ledger.originals id
    | .absent => ledger.originals id = [] := by
  unfold lookUp at h
  obtain ⟨report, hreport, h⟩ := bind_eq_some.mp h
  cases report with
  | some report =>
    cases h
    exact hreport
  | none =>
    obtain ⟨fact, hfact, h⟩ := bind_eq_some.mp h
    cases fact with
    | some fact =>
      cases h
      exact ⟨hreport, DecisionLedger.mem_of_oneOrNone hfact⟩
    | none =>
      cases h
      exact DecisionLedger.eq_nil_of_oneOrNone hfact

/-- A report with saved stages is of the object of its event. -/
theorem businessObjectId_of_withSavedStages {visible : FormalReport} {saved : SavedStages}
    (h : report.withSavedStages saved = some visible) :
    visible.businessObjectId = report.businessObjectId := by
  have hhistory : ∀ stages : List StageResult,
      (report.withPublicationHistory stages).businessObjectId = report.businessObjectId := by
    intro stages
    unfold FormalReport.withPublicationHistory
    split
    · rfl
    · split
      · rfl
      · split
        · dsimp only
          split
          · rfl
          · rfl
        · dsimp only
          split
          · rfl
          · rfl
  unfold FormalReport.withSavedStages at h
  split at h
  · obtain ⟨committedAt, -, rfl⟩ := Option.map_eq_some_iff.mp h
    rfl
  · dsimp only at h
    split at h
    · obtain ⟨committedAt, -, h⟩ := bind_eq_some.mp h
      obtain ⟨publishedAt, -, rfl⟩ := Option.map_eq_some_iff.mp h
      exact hhistory _
    · split at h
      · cases h
        exact hhistory _
      · obtain ⟨committedAt, -, h⟩ := bind_eq_some.mp h
        obtain ⟨publishedAt, -, rfl⟩ := Option.map_eq_some_iff.mp h
        exact hhistory _

include h in
theorem progresses_published (hrequest : request.Requests id)
    (hreport : ledger.originalFormalReport contracts id = some (some report)) :
    Progresses contracts request ledger (ledger, .answered (.published report)) := by
  obtain ⟨fact, other, hother, heq, hvisible⟩ :=
    DecisionLedger.visible_of_originalFormalReport hreport
  obtain ⟨hother, hobject, hnone⟩ := DecisionLedger.mem_originals.mp hother
  have hfact := (DecisionLedger.mem_of_event? hvisible.event).1
  obtain rfl := h.eq_of_decisionEventId hother hfact heq
  have hshows : (Answer.published report).Shows contracts ledger :=
    ⟨other, hnone, hother, _, List.prefix_refl _, hvisible.stages⟩
  refine .stay h hshows fun id' hid' => ?_
  cases hid'
  rw [businessObjectId_of_withSavedStages hvisible.stages]
  show request.Requests other.businessObjectId
  rw [hobject]
  exact hrequest

include h in
theorem progresses_continueWith (hrequest : request.Requests id) {absent : DecisionLedger × Phase}
    (habsent : ledger.originals id = [] → Progresses contracts request ledger absent) :
    Progresses contracts request ledger (continueWith contracts ledger id absent) := by
  unfold continueWith
  split
  · exact .stopped (.refl ledger) h
  · rename_i report hlookUp
    exact progresses_published h hrequest (lookUp_eq_some hlookUp)
  · exact .stay h trivial fun _ hid' => Option.some.inj hid' ▸ hrequest
  · rename_i hlookUp
    exact habsent (lookUp_eq_some hlookUp)

include h in
theorem progresses_freezeExecution (hrequest : request.Requests id) :
    Progresses contracts request ledger (freezeExecution contracts ledger input id) := by
  unfold freezeExecution
  split
  · exact .stopped (.refl ledger) h
  · rename_i case hcase
    have hid := DecisionLedger.businessObjectId_of_mapping? hcase
    split
    · exact .stopped (.refl ledger) h
    · rename_i ledger' hensure
      obtain ⟨hgrows, hledger'⟩ := h.ensureBusinessObject hensure
      split
      · have hexecuting : Progresses contracts request ledger (ledger', .executing case) := by
          refine ⟨hgrows, hledger', hgrows.mapping? (hid.symm ▸ hcase), fun id' hid' => ?_⟩
          cases hid'
          rw [hid]
          exact hrequest
        exact hexecuting.close h _
      · rename_i stages _
        have hadds := ledger'.addsStages_recordAll (stages.map fun stage =>
          (caseRow case input.clock case.frameworkRunId stage, false))
        exact (progresses_unpublished (hgrows.trans hadds.grows) (hledger'.addsStages hadds)
          hrequest _ _).close h _

theorem progresses_committedPhase (hgrows : ledger.Grows after) (h : Consistent contracts after)
    (hfact : fact ∈ after.events) (hrequest : request.Requests fact.businessObjectId) :
    Progresses contracts request ledger (after, committedPhase fact) := by
  unfold committedPhase
  split
  · exact ⟨hgrows, h, trivial, fun _ hid' => Option.some.inj hid' ▸ hrequest⟩
  · exact ⟨hgrows, h, hfact, fun _ hid' => Option.some.inj hid' ▸ hrequest⟩

theorem progresses_unverified (hgrows : ledger.Grows after) (h : Consistent contracts after)
    (hfact : Attempted contracts ledger fact) (hrequest : request.Requests fact.businessObjectId)
    (uncertain : Bool) (stages : List StageResult) :
    Progresses contracts request ledger (after, .unverified fact uncertain stages) :=
  ⟨hgrows, h, hfact.grows hgrows, fun _ hid' => Option.some.inj hid' ▸ hrequest⟩

include h in
theorem progresses_commitEvent {written : DecisionLedger} (hwritten : ledger.AddsStages written)
    (hfact : Attempted contracts ledger fact) (hrequest : request.Requests fact.businessObjectId)
    (stages : List StageResult) :
    Progresses contracts request ledger (commitEvent ledger input written fact stages) := by
  have hconsistent := h.addsStages hwritten
  unfold commitEvent
  split
  · rename_i existing hexisting
    split
    · rename_i heq
      subst heq
      have hmem := (DecisionLedger.mem_of_event? hexisting).1
      exact (progresses_committedPhase hwritten.grows hconsistent hmem hrequest).close h _
    · exact progresses_unverified (.refl ledger) h hfact hrequest false stages
  · rename_i hnew
    split
    · exact progresses_unverified (.refl ledger) h hfact hrequest false stages
    · have hafter := hconsistent.addEvent hnew (hfact.grows hwritten.grows)
      have hgrows := hwritten.grows.trans (written.grows_addEvent fact)
      have hmem : fact ∈ written.events ++ [fact] :=
        List.mem_append_right _ (List.mem_singleton_self fact)
      dsimp only
      split
      · exact progresses_committedPhase hgrows hafter hmem hrequest
      · exact progresses_unverified hgrows hafter hfact hrequest true stages
      · exact progresses_unverified (.refl ledger) h hfact hrequest true stages

/-- A candidate release that a case commits as releasable has a complete window. -/
theorem candidateWindowError_of_committedRelease {history : List GovernanceOutcome}
    {committedAt : Instant} (h : (committedRelease contracts case command history clocks source
      committedAt).disposition.isReleasable) :
    candidateWindowError contracts.calendars command = none := by
  have hsource := (isReleasable_of_finalize (isReleasable_of_finalize h).1).1
  have hunavailable : ∀ (command : CandidateReleaseCommand) publishedAt reason failure details,
      (candidateReleaseAvailabilityFailure contracts.calendars command publishedAt reason failure
        details).disposition.isReleasable = false := by
    intro command publishedAt reason failure details
    unfold candidateReleaseAvailabilityFailure
    dsimp only
    split
    · rfl
    · rfl
  unfold sourceRelease at hsource
  dsimp only at hsource
  split at hsource
  · exact nomatch hsource
  · rw [hunavailable] at hsource
    exact nomatch hsource
  · rw [hunavailable] at hsource
    exact nomatch hsource
  · split at hsource
    · rw [hunavailable] at hsource
      exact nomatch hsource
    · rw [← candidateWindowError_of_freeze _ _ hsource]
      exact (candidateWindowError_congr _ _ rfl rfl rfl rfl).symm

/-- What an executed case releases is confirmed when it is committed. -/
theorem executedFact_result (hcommand : case.candidateRelease = some command)
    (result : ExternalResult) (source : ReleaseSource) (clocks : ReleaseClocks)
    (stages : List StageResult) :
    (executedFact contracts ledger input case result source clocks stages).result =
      { result with
        candidateRelease := some (committedRelease contracts case command
          (case.accessScope.elim [] ledger.governanceHistory) clocks source input.observedAt)
        hasMonitoring := false } := by
  unfold executedFact
  rw [hcommand]

theorem attempted_executedFact {result : ExternalResult}
    (hcase : ledger.mapping? case.businessObjectId = some case) (stages : List StageResult) :
    Attempted contracts ledger
      (executedFact contracts ledger input case result source clocks stages) where
  case_eq := rfl
  original := fun _ => ⟨hcase, rfl⟩
  correction := fun _ hsome => nomatch hsome
  committed := ⟨businessCommitSucceeded, List.getLast?_concat, rfl⟩
  window := by
    intro command outcome hgated
    obtain ⟨hcommand, houtcome, -, hreleasable⟩ := gatedRelease_eq_some hgated
    have hrelease : case.candidateRelease = some command := hcommand
    rw [executedFact_result hrelease] at houtcome
    cases houtcome
    exact candidateWindowError_of_committedRelease hreleasable
  monitoring := by
    intro command outcome hgated
    obtain ⟨hcommand, -⟩ := gatedRelease_eq_some hgated
    have hrelease : case.candidateRelease = some command := hcommand
    rw [executedFact_result hrelease]

include h in
theorem progresses_commitFrameworkResult (hcase : ledger.mapping? case.businessObjectId = some case)
    (hrequest : request.Requests case.businessObjectId) :
    Progresses contracts request ledger (commitFrameworkResult contracts ledger input case) := by
  unfold commitFrameworkResult
  split
  · rename_i rows _
    have hadds := ledger.addsStages_recordAll (rows.map fun row =>
      (caseRow case input.clock case.frameworkRunId row.1, row.2))
    exact (progresses_unpublished hadds.grows (h.addsStages hadds) hrequest _ _).close h _
  · exact progresses_commitEvent h (ledger.addsStages_recordAll _) (attempted_executedFact hcase _)
      hrequest _

include h in
theorem progresses_verifyEvent (hfact : Attempted contracts ledger fact)
    (hrequest : request.Requests fact.businessObjectId) (uncertain : Bool)
    (stages : List StageResult) :
    Progresses contracts request ledger (verifyEvent ledger fact uncertain stages) := by
  unfold verifyEvent
  split
  · exact .stay h hfact fun _ hid' => Option.some.inj hid' ▸ hrequest
  · rename_i committed hcommitted
    split
    · rename_i heq
      subst heq
      exact progresses_committedPhase (.refl ledger) h (DecisionLedger.mem_of_event? hcommitted).1
        hrequest
    · exact .stopped (.refl ledger) h

include h in
theorem progresses_recordUnsaved (hrequest : request.Requests fact.businessObjectId)
    (uncertain : Bool) (stages : List StageResult) :
    Progresses contracts request ledger (recordUnsaved ledger input fact uncertain stages) := by
  unfold recordUnsaved
  dsimp only
  split
  · have hadds := (ledger.addsStages_recordAll (stages.map fun stage =>
      (caseRow fact.case input.clock fact.case.frameworkRunId stage,
        decide (stage.status ∉ [.succeeded, .rejected, .abstained])))).trans
        (DecisionLedger.addsStages_recordStageResult _ (caseRow fact.case input.clock
          fact.case.frameworkRunId (commitFailure "HOST_RESULT_SAVED" uncertain)) true)
    exact (progresses_unpublished hadds.grows (h.addsStages hadds) hrequest _ _).close h _
  · have hadds := ledger.addsStages_recordStageResult (DecisionLedger.stageRow fact
      (some fact.decisionEventId) input.clock
      (commitFailure "CORRECTION_RESULT_SAVED" uncertain)) true
    exact (progresses_correctionFailed hadds.grows (h.addsStages hadds) _ _).close h _

include h in
theorem progresses_closing (hfact : fact ∈ ledger.events)
    (hrequest : request.Requests fact.businessObjectId) (reason : String)
    (availabilityFailure : Option CandidateAvailabilityFailure) :
    Progresses contracts request ledger (ledger, .closing fact reason availabilityFailure) :=
  .stay h hfact fun _ hid' => Option.some.inj hid' ▸ hrequest

theorem progresses_closedAnswer (hgrows : ledger.Grows after) (h : Consistent contracts after)
    (hrequest : request.Requests fact.businessObjectId) :
    Progresses contracts request ledger (after, .answered (closedAnswer after fact)) := by
  unfold closedAnswer
  split
  · exact progresses_unpublished hgrows h hrequest _ _
  · exact progresses_correctionFailed hgrows h _ _

theorem progresses_reportAnswer (hgrows : ledger.Grows after) (h : Consistent contracts after)
    (hfact : fact ∈ after.events) (hrequest : request.Requests fact.businessObjectId)
    (hreport : after.formalReportForEvent contracts fact.decisionEventId = some (some report)) :
    Progresses contracts request ledger (after, .answered (reportAnswer fact report)) := by
  obtain ⟨shown, hid, hvisible⟩ := DecisionLedger.visible_of_formalReportForEvent hreport
  have hmem := (DecisionLedger.mem_of_event? hvisible.event).1
  obtain rfl := h.eq_of_decisionEventId hmem hfact hid
  have hshown : shown.ShownBy contracts after report :=
    ⟨hmem, _, List.prefix_refl _, hvisible.stages⟩
  have hobject : report.businessObjectId = shown.businessObjectId :=
    businessObjectId_of_withSavedStages hvisible.stages
  unfold reportAnswer
  split
  · rename_i hnone
    refine ⟨hgrows, h, ⟨shown, hnone, hshown⟩, fun id' hid' => ?_⟩
    cases hid'
    exact hobject ▸ hrequest
  · rename_i hsome
    refine ⟨hgrows, h, ⟨shown, hsome, hshown⟩, fun id' hid' => ?_⟩
    cases hid'
    exact hobject ▸ hrequest

section Publish

variable {opened : DecisionLedger} (h : Consistent contracts ledger)
include h

theorem progresses_recordPublication (hopened : ledger.AddsStages opened)
    (hfact : fact ∈ ledger.events) (hrequest : request.Requests fact.businessObjectId) :
    Progresses contracts request ledger
      (recordPublication contracts ledger input opened fact) := by
  have hadds := hopened.trans (opened.addsStages_recordStageResult
    (DecisionLedger.stageRow fact (some fact.decisionEventId) input.clock publicationSucceeded)
    false)
  unfold recordPublication
  dsimp only
  split
  · exact .stopped (.refl ledger) h
  · exact progresses_closing h hfact hrequest _ _
  · split
    · rename_i report hreport
      exact (progresses_reportAnswer hadds.grows (h.addsStages hadds)
        (hadds.grows.events.subset hfact) hrequest hreport).close h _
    · exact .stopped (.refl ledger) h

theorem progresses_confirmPublication (hopened : ledger.AddsStages opened)
    (hfact : fact ∈ ledger.events) (hrequest : request.Requests fact.businessObjectId) :
    Progresses contracts request ledger
      (confirmPublication contracts ledger input opened fact) := by
  unfold confirmPublication
  dsimp only
  split
  · exact .stopped (.refl ledger) h
  · exact progresses_closing h hfact hrequest _ _
  · exact progresses_recordPublication h hopened hfact hrequest

/-- Publishing the report of a saved event keeps the ledger consistent. -/
theorem progresses_publishReport (hfact : fact ∈ ledger.events)
    (hrequest : request.Requests fact.businessObjectId) :
    Progresses contracts request ledger (publishReport contracts ledger input fact) := by
  have hopened := ledger.addsStages_ensureEventStageResults fact input.clock
  unfold publishReport
  dsimp only
  split
  · have hadds := hopened.trans (DecisionLedger.addsStages_recordStageResult _
      (DecisionLedger.stageRow fact (some fact.decisionEventId) input.clock
        (publicationFailureStage "SHADOW_ISOLATED" none)) false)
    exact (progresses_closedAnswer hadds.grows (h.addsStages hadds) hrequest).close h _
  · rename_i hshadow
    split
    · exact progresses_closing h hfact hrequest _ _
    · split
      · exact progresses_closing h hfact hrequest _ _
      · split
        · exact progresses_confirmPublication h hopened hfact hrequest
        · exact progresses_closing h hfact hrequest _ _
      · split
        · exact progresses_closing h hfact hrequest _ _
        · rename_i hwrites
          obtain ⟨-, hnew⟩ := not_or.mp hwrites
          have hconsistent := h.addsStages hopened
          have hafter := hconsistent.addReport (hopened.grows.events.subset hfact)
            (eq_false_of_ne_true hshadow)
            (fun row hrow heq => hnew (List.any_eq_true.mpr ⟨row, hrow, decide_eq_true heq⟩))
          have hgrows := hopened.grows.trans
            (DecisionLedger.grows_addReport _ (formalReport contracts fact))
          have hmem := hgrows.events.subset hfact
          split
          · exact ⟨hgrows, hafter, hmem, fun _ hid' => Option.some.inj hid' ▸ hrequest⟩
          · exact ⟨hgrows, hafter, hmem, fun _ hid' => Option.some.inj hid' ▸ hrequest⟩
          · exact .stay h hfact fun _ hid' => Option.some.inj hid' ▸ hrequest

theorem progresses_verifyReport (hfact : fact ∈ ledger.events)
    (hrequest : request.Requests fact.businessObjectId) :
    Progresses contracts request ledger (verifyReport contracts ledger fact) := by
  unfold verifyReport
  split
  · exact .stopped (.refl ledger) h
  · exact progresses_closing h hfact hrequest _ _
  · split
    · exact .stay h hfact fun _ hid' => Option.some.inj hid' ▸ hrequest
    · exact .stopped (.refl ledger) h

theorem progresses_recordClosed (hfact : fact ∈ ledger.events)
    (hrequest : request.Requests fact.businessObjectId) (reason : String)
    (availabilityFailure : Option CandidateAvailabilityFailure) :
    Progresses contracts request ledger
      (recordClosed contracts ledger input fact reason availabilityFailure) := by
  have hadds := (ledger.addsStages_ensureEventStageResults fact input.clock).trans
    (DecisionLedger.addsStages_recordStageResult _
      (DecisionLedger.stageRow fact (some fact.decisionEventId) input.clock
        (publicationFailureStage reason availabilityFailure)) true)
  have hafter := h.addsStages hadds
  have hclosed := (progresses_closedAnswer hadds.grows hafter hrequest).close h input.signal
  unfold recordClosed
  dsimp only
  split
  · split
    · exact .stopped (.refl ledger) h
    · exact hclosed
    · rename_i report hreport
      split
      · exact (progresses_reportAnswer hadds.grows hafter (hadds.grows.events.subset hfact)
          hrequest hreport).close h _
      · exact hclosed
  · exact hclosed

end Publish

include h in
theorem attempted_correctionFact {original : DecisionEventFact} (hmem : original ∈ ledger.events)
    (hnone : original.correctsEventId = none) :
    Attempted contracts ledger
      (correctionFact contracts input (correctionCase original.case case) original report) where
  case_eq := rfl
  original := fun hsome => nomatch hsome
  correction := by
    intro corrected hcorrected
    cases hcorrected
    exact ⟨rfl, original, hmem, rfl, hnone, ((h.attempted original hmem).case_eq).symm⟩
  committed := ⟨_, rfl, rfl⟩
  window := by
    intro command outcome hgated
    exact nomatch (gatedRelease_eq_some hgated).2.2.1
  monitoring := by
    intro command outcome hgated
    exact nomatch (gatedRelease_eq_some hgated).2.2.1

include h in
theorem progresses_correct (case : FrozenDecisionCase) :
    Progresses contracts (.requestedCorrection case) ledger
      (correct contracts ledger input case) := by
  unfold correct
  split
  · exact .stopped (.refl ledger) h
  · rename_i id hresolve
    have hrequest : (Phase.requestedCorrection case).Requests id := requests_of_resolve hresolve
    split
    · rename_i original report horiginal _
      obtain ⟨hmem, rfl, hnone⟩ :=
        DecisionLedger.mem_originals.mp (DecisionLedger.mem_of_oneOrNone horiginal)
      split
      · exact .stopped (.refl ledger) h
      · rename_i fact hfact
        obtain ⟨hfact, hsome⟩ :=
          DecisionLedger.mem_corrections.mp (DecisionLedger.mem_of_oneOrNone hfact)
        refine progresses_publishReport h hfact ?_
        obtain ⟨-, e, he, hid, -, hobject⟩ := (h.attempted fact hfact).correction _ hsome
        obtain rfl := h.eq_of_decisionEventId he hmem hid
        exact hobject ▸ hrequest
      · refine progresses_commitEvent h (.refl ledger) (attempted_correctionFact h hmem hnone) ?_ _
        show (Phase.requestedCorrection case).Requests original.case.businessObjectId
        rw [(h.attempted original hmem).case_eq]
        exact hrequest
    · exact .stopped (.refl ledger) h

include h in
/-- A transaction of any phase keeps the ledger consistent and serves its request. -/
theorem progresses_proceed (hholds : phase.Holds contracts ledger)
    (hserves : Phase.Serves request phase) :
    Progresses contracts request ledger (proceed contracts ledger input phase) := by
  cases phase with
  | requested case =>
    obtain rfl : request = .requested case := hserves
    exact progresses_persistMapping h case
  | mapped id =>
    exact progresses_continueWith h (hserves id rfl)
      fun _ => .stay h trivial fun _ hid' => Option.some.inj hid' ▸ hserves id rfl
  | unanswered id =>
    exact progresses_continueWith h (hserves id rfl)
      fun _ => progresses_freezeExecution h (hserves id rfl)
  | executing case =>
    exact progresses_continueWith h (hserves _ rfl)
      fun _ => progresses_commitFrameworkResult h hholds (hserves _ rfl)
  | requestedCorrection case =>
    obtain rfl : request = .requestedCorrection case := hserves
    exact progresses_correct h case
  | unverified fact uncertain stages =>
    exact progresses_verifyEvent h hholds (hserves _ rfl) uncertain stages
  | unsaved fact uncertain stages =>
    exact progresses_recordUnsaved h (hserves _ rfl) uncertain stages
  | saved id =>
    unfold proceed
    dsimp only
    split
    · rename_i report hlookUp
      exact progresses_published h (hserves id rfl) (lookUp_eq_some hlookUp)
    · rename_i fact hlookUp
      obtain ⟨hfact, hobject, -⟩ := DecisionLedger.mem_originals.mp (lookUp_eq_some hlookUp).2
      exact progresses_publishReport h hfact (hobject.symm ▸ hserves id rfl)
    · exact .stopped (.refl ledger) h
  | publishing fact => exact progresses_publishReport h hholds (hserves _ rfl)
  | unverifiedReport fact => exact progresses_verifyReport h hholds (hserves _ rfl)
  | reported fact =>
    exact progresses_confirmPublication h (.refl ledger) hholds (hserves _ rfl)
  | closing fact reason availabilityFailure =>
    exact progresses_recordClosed h hholds (hserves _ rfl) reason availabilityFailure
  | answered answer => exact .stay h hholds hserves
  | stopped => exact .stay h hholds hserves

include h in
theorem progresses_advance (hholds : phase.Holds contracts ledger)
    (hserves : Phase.Serves request phase) (act : Act) :
    Progresses contracts request ledger (advance contracts act ledger phase) := by
  cases act with
  | stop => exact .stopped (.refl ledger) h
  | record rows input =>
    cases phase with
    | executing case =>
      have hadds := ledger.addsStages_recordAll
        (rows.map fun row => (caseRow case input.clock row.2.1 row.1, row.2.2))
      exact (Progresses.addsStages h hadds (hholds.grows hadds.grows) hserves).close h _
    | requested => exact .stay h hholds hserves
    | mapped => exact .stay h hholds hserves
    | unanswered => exact .stay h hholds hserves
    | requestedCorrection => exact .stay h hholds hserves
    | unverified => exact .stay h hholds hserves
    | unsaved => exact .stay h hholds hserves
    | saved => exact .stay h hholds hserves
    | publishing => exact .stay h hholds hserves
    | unverifiedReport => exact .stay h hholds hserves
    | reported => exact .stay h hholds hserves
    | closing => exact .stay h hholds hserves
    | answered => exact .stay h hholds hserves
    | stopped => exact .stay h hholds hserves
  | proceed input => exact progresses_proceed h hholds hserves

end Progress

end StockProfiler.Publication
