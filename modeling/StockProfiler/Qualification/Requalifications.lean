import StockProfiler.Core.Succession
import StockProfiler.Qualification.LifeCycle

/-!
# Requalifications over a run

The application behind a requalification was registered while the revocation it
answers was in force, in the lineage of the revoked record, and no application is
used twice.
-/

namespace StockProfiler.Qualification

variable {context : AdjudicationContext} {proof : RequalificationProof}
  {registered : RegisteredRequalificationApplication} {history : List GovernanceOutcome}
  {run : List GovernanceStep} {step : GovernanceStep} {record previous : QualificationRecord}

/-- An application is registered by a command on a revoked record. -/
theorem registered_of_adjudicateGovernance {command : GovernanceCommand} {met : Bool}
    {outcome : GovernanceOutcome} (h : adjudicateGovernance context command met = .ok outcome)
    (hregistered : outcome.registeredRequalification = some registered) :
    ∃ previous ∈ qualificationRecords context.history, ∃ terminatedAt,
      previous.status = .revoked ∧ previous.authorizationTerminatedAt = some terminatedAt ∧
        registered.previousQualificationDecisionId = previous.decisionId ∧
        terminatedAt < registered.recordedAt := by
  obtain ⟨binding, inner, rfl, ⟨reason, rfl⟩ | hinner⟩ := adjudicated_of_governance h
  · cases hregistered
  · cases command with
    | qualification command =>
      rcases carried_of_adjudicate hinner with ⟨reason, rfl⟩ | ⟨current, hcurrent, hcarried⟩
      · cases hregistered
      · rcases carryOut_cases hcarried with ⟨_, _, _, rfl⟩ | rfl | rfl
        · cases hregistered
        · unfold recordAlertReplay at hregistered
          grind [denied]
        · dsimp only at hregistered
          unfold registerRequalificationApplication at hregistered
          split at hregistered
          · cases hregistered
          · rename_i previous terminatedAt application hregistrable
            unfold registrable at hregistrable
            simp only [bind_eq_some, pure_eq_some, Prod.mk.injEq,
              Option.guard_eq_some'] at hregistrable
            obtain ⟨_, rfl, _, hterminated, _, -, _, ⟨hstatus, -⟩, rfl, rfl, rfl⟩ := hregistrable
            split at hregistered
            · rename_i hvalid
              obtain ⟨hafter, hlocked, hnow, -⟩ := of_decide_eq_true hvalid
              cases hregistered
              refine ⟨_, (mem_of_currentQualificationMatching hcurrent).1, _, hstatus,
                hterminated, rfl, ?_⟩
              rw [← hnow, ← hlocked]
              exact hafter
            · cases hregistered
    | registerTaskNode command =>
      have houtcome : registerTaskNode context command = inner := Except.ok.inj hinner
      subst houtcome
      unfold registerTaskNode at hregistered
      grind [denied]
    | activateVersion command =>
      obtain ⟨qualification, -, hinner⟩ := bind_eq_ok.mp hinner
      unfold activateVersion at hinner
      obtain ⟨current, -, hinner⟩ := bind_eq_ok.mp hinner
      repeat' split at hinner
      all_goals
        cases hinner
        cases hregistered
    | freezeTask command =>
      obtain ⟨qualification, -, hinner⟩ := bind_eq_ok.mp hinner
      unfold freezeTask at hinner
      dsimp only at hinner
      repeat' split at hinner
      · cases hinner
        cases hregistered
      · cases hinner
        cases hregistered
      · obtain ⟨active, -, hinner⟩ := bind_eq_ok.mp hinner
        cases hinner
        cases hregistered
    | useTask command =>
      obtain ⟨qualification, -, hinner⟩ := bind_eq_ok.mp hinner
      cases hinner
      unfold useTask at hregistered
      grind [denied, usageOutcome]

theorem mem_of_recordsById {decisionId : String}
    (h : (recordsById history).get? decisionId = some record) :
    record ∈ qualificationRecords history ∧ record.decisionId = decisionId := by
  have hentry := Dict.mem_ofLast (Dict.mem_of_get? h)
  obtain ⟨found, hfound, hpair⟩ := List.mem_map.mp hentry
  cases hpair
  exact ⟨hfound, rfl⟩

/-- What superseding decisions lead to is a record of the lineage. -/
theorem Lineage.passes (hrun : GovernanceRun run)
    (hhistory : qualificationRecords history ⊆ savedRecords run) {decisionId anchorId : String}
    (hreach : Relation.ReflTransGen (Linked (supersededLink (recordsById history) anchorId))
      decisionId anchorId) {steps : List GovernanceStep} (hsteps : Lineage run steps record)
    (hid : record.decisionId = decisionId) :
    ∃ step ∈ steps, ∃ passed, savedRecord step = some passed ∧ passed.decisionId = anchorId := by
  induction hreach using Relation.ReflTransGen.head_induction_on generalizing steps record with
  | refl =>
    cases hsteps with
    | first _ hsaved _ => exact ⟨_, List.mem_singleton_self _, record, hsaved, hid⟩
    | next _ _ hsaved _ =>
      exact ⟨_, List.mem_append_right _ (List.mem_singleton_self _), record, hsaved, hid⟩
  | @head decisionId previousId hlink _ ih =>
    unfold Linked supersededLink at hlink
    split at hlink
    · cases hlink
    · cases hfound : (recordsById history).get? decisionId with
      | none =>
        rw [hfound] at hlink
        cases hlink
      | some found =>
        rw [hfound] at hlink
        obtain ⟨hmem, hfoundId⟩ := mem_of_recordsById hfound
        have hsame : found = record :=
          record_unique hrun (hhistory hmem) hsteps.mem (hfoundId.trans hid.symm)
        subst hsame
        have hprevious : found.previousDecisionId = some previousId := by
          cases hnone : found.previousDecisionId with
          | none => simp [hnone] at hlink
          | some found =>
            simp only [Option.bind_eq_bind, Option.bind_some, hnone] at hlink
            cases hlink
            rfl
        cases hsteps with
        | first _ _ hroot =>
          rw [hprevious] at hroot
          cases hroot
        | next hbefore _ _ hsuperseded =>
          rw [hprevious] at hsuperseded
          obtain ⟨step, hstep, hpassed⟩ := ih hbefore (Option.some.inj hsuperseded).symm
          exact ⟨step, List.mem_append_left _ hstep, hpassed⟩

/-- Whether a step registered an application for the revocation that a record stands under: the
record it was registered for is revoked, belongs to the lineage and the authority of the record
and was revoked before the registration. -/
def RegisteredForRevocation (run : List GovernanceStep) (previous : QualificationRecord)
    (applicationId : String) (registering : GovernanceStep) : Prop :=
  ∃ registered revoked terminatedAt,
    registering.outcome.outcome.registeredRequalification = some registered ∧
    registered.application.applicationId = applicationId ∧
    revoked ∈ qualificationRecords (historyOf registering) ∧ revoked.status = .revoked ∧
    revoked.authorizationId = previous.authorizationId ∧
    revoked.authorizationTerminatedAt = some terminatedAt ∧
    previous.authorizationTerminatedAt = some terminatedAt ∧
    terminatedAt < registered.recordedAt ∧
    ∀ steps, Lineage run steps previous → ∃ s ∈ steps, savedRecord s = some revoked

/-- The application of a requalification was registered for the revocation it ends. -/
theorem registeredForRevocation (hrun : GovernanceRun run) (hstep : step ∈ run)
    (hregistered : registered ∈ registeredApplications (historyOf step))
    (hmatches : RegisteredRequalificationMatchesCurrentLineage registered previous (historyOf step))
    (hid : registered.application.applicationId = proof.applicationId) :
    ∃ registering ∈ run, registering.outcome ∈ step.before ∧
      RegisteredForRevocation run previous proof.applicationId registering := by
  obtain ⟨outcome, houtcome, hsome⟩ := List.mem_filterMap.mp hregistered
  obtain ⟨fact, hfact, rfl⟩ := List.mem_map.mp houtcome
  obtain ⟨earlier, later, hsplit, -, hbefore⟩ := hrun.exists_split hstep
  have hmem := hfact
  rw [hbefore] at hmem
  obtain ⟨registering, hregistering, rfl⟩ := List.mem_map.mp hmem
  have hregisteringRun : registering ∈ run := by
    rw [hsplit]
    exact List.mem_append_left _ hregistering
  obtain ⟨-, -, hadjudicated⟩ := commitGovernance_inv (hrun.step_of_mem hregisteringRun)
  obtain ⟨revoked, hrevoked, terminatedAt, hstatus, hterminated, hfor, hafter⟩ :=
    registered_of_adjudicateGovernance hadjudicated hsome
  obtain ⟨anchor, hanchor, -, -, -, -, hauthority, -, hended, -, hreaches⟩ := hmatches
  obtain ⟨hanchorMem, hanchorId⟩ := mem_of_recordsById hanchor
  have hsame : anchor = revoked := record_unique hrun (history_subset hrun hstep hanchorMem)
    (history_subset hrun hregisteringRun hrevoked) (hanchorId.trans hfor)
  subst hsame
  refine ⟨registering, hregisteringRun, hfact, registered, anchor, terminatedAt, hsome, hid,
    hrevoked, hstatus, hauthority, hterminated, hended ▸ hterminated, hafter, ?_⟩
  intro steps hsteps
  have hreach := (follow_eq_root hreaches).1
  obtain ⟨passing, hpassing, passed, hpassed, hpassedId⟩ :=
    hsteps.passes hrun (history_subset hrun hstep) hreach rfl
  have hpassingRun : passed ∈ savedRecords run := by
    refine mem_savedRecords.mpr ⟨passing, ?_, hpassed⟩
    exact hsteps.subset hpassing
  have hpassedSame : passed = anchor :=
    record_unique hrun hpassingRun (history_subset hrun hstep hanchorMem) hpassedId
  exact ⟨passing, hpassing, hpassedSame ▸ hpassed⟩

/-- Every authority was granted by a committed event. -/
theorem authorizationId_of_mem (hrun : GovernanceRun run) (hrecord : record ∈ savedRecords run) :
    ∀ id ∈ record.authorizationId, id ∈ run.map (·.outcome.eventId) := by
  refine forall_saved (P := fun record => ∀ id ∈ record.authorizationId,
    id ∈ run.map (·.outcome.eventId)) hrun ?_ record hrecord
  intro step hstep previous record _ hsaved hprevious id hid
  have hevent : (contextOf step).eventId ∈ run.map (·.outcome.eventId) := by
    obtain ⟨-, hsame, -⟩ := commitGovernance_inv (hrun.step_of_mem hstep)
    exact List.mem_map.mpr ⟨step, hstep, hsame⟩
  generalize step.input.command = command at hsaved
  cases hsaved with
  | expired h =>
    obtain ⟨-, -, -, rfl⟩ := expiredByUse_inv h
    obtain ⟨_, _, _, hframe⟩ := restrictExpiredQualification_frame _ (contextOf step).now
    rw [hframe] at hid
    exact (hprevious _ rfl).2 id hid
  | changed h =>
    cases h with
    | notObtained haction => exact nomatch hid
    | granted haction _ => exact Option.some.inj hid ▸ hevent
    | requalified haction _ _ _ _ _ _ => exact Option.some.inj hid ▸ hevent
    | @alerted previous haction _ =>
      obtain ⟨_, _, _, hframe⟩ := restrictExpiredQualification_frame previous (contextOf step).now
      simp only [alertedRecord, hframe] at hid
      exact (hprevious previous rfl).2 id hid
    | suspended haction _ _ => exact (hprevious _ rfl).2 id hid
    | revoked haction _ _ => exact (hprevious _ rfl).2 id hid
    | restored haction _ _ => exact (hprevious _ rfl).2 id hid
    | @undecided previous _ _ haction _ _ _ =>
      obtain ⟨_, _, _, hframe⟩ := restrictExpiredQualification_frame previous (contextOf step).now
      simp only [disposedRecord, hframe] at hid
      exact (hprevious previous rfl).2 id hid
    | @checked previous _ _ _ haction _ _ _ =>
      obtain ⟨_, _, _, hframe⟩ := restrictExpiredQualification_frame previous (contextOf step).now
      simp only [checkedRecord, disposedRecord, hframe] at hid
      exact (hprevious previous rfl).2 id hid
    | notExecuted haction _ _ => exact (hprevious _ rfl).2 id hid
    | closed haction _ _ _ _ => exact (hprevious _ rfl).2 id hid

/-- The event of a step names no authority of the records before it. -/
theorem authorizationId_fresh (hrun : GovernanceRun run) (hstep : step ∈ run)
    {earlier : QualificationRecord} (hearlier : earlier ∈ qualificationRecords (historyOf step)) :
    earlier.authorizationId ≠ some step.outcome.eventId := by
  intro hsame
  obtain ⟨before, later, hsplit, hbeforeRun, hbefore⟩ := hrun.exists_split hstep
  unfold historyOf at hearlier
  rw [hbefore, qualificationRecords_outcomes] at hearlier
  have hmem := authorizationId_of_mem hbeforeRun hearlier _ hsame
  obtain ⟨hnew, hid, -⟩ := commitGovernance_inv (hrun.step_of_mem hstep)
  refine hnew ?_
  rw [hbefore, ← hid, outcomes, List.map_map]
  exact hmem

/-- Whether a step ends a revocation by a requalification of its own authority. -/
def EndsRevocation (run : List GovernanceStep) (step : GovernanceStep)
    (previous record : QualificationRecord) : Prop :=
  ∃ command proof, step.input.command = .qualification command ∧ command.action = .requalify ∧
    command.requalification = some proof ∧ record.requalification = some proof ∧
    (∃ registering ∈ run, registering.outcome ∈ step.before ∧
      RegisteredForRevocation run previous proof.applicationId registering) ∧
    (∀ earlier ∈ qualificationRecords (historyOf step), ∀ used ∈ earlier.requalification,
      used.applicationId ≠ proof.applicationId) ∧
    record.authorizationId = some step.outcome.eventId ∧
    ∀ earlier ∈ qualificationRecords (historyOf step),
      earlier.authorizationId ≠ record.authorizationId

theorem mem_of_registeredRequalificationApplication {scope : QualificationScope}
    {version : CapabilityVersion} {applicationId : String}
    (h : registeredRequalificationApplication history scope version applicationId =
      .ok (some registered)) :
    registered ∈ registeredApplications history ∧
      registered.application.applicationId = applicationId := by
  unfold registeredRequalificationApplication at h
  split at h
  · exact nomatch h
  · rename_i found hfound
    cases h
    obtain ⟨hmem, hmatches⟩ := List.mem_filter.mp (hfound ▸ List.mem_singleton_self registered)
    exact ⟨hmem, (of_decide_eq_true hmatches).2.2⟩
  · exact nomatch h

/-- The parts of a requalification name the application that was found. -/
theorem registered_of_requalificationParts {command : QualificationCommand}
    {registered : Option RegisteredRequalificationApplication} {parts : RequalificationParts}
    (h : requalificationParts command previous proof registered = some parts) :
    registered = some parts.registered := by
  unfold requalificationParts at h
  simp only [bind_eq_some, pure_eq_some] at h
  obtain ⟨_, _, _, _, _, _, _, _, _, _, _, hregistered, _, _, _, _, _, _, rfl⟩ := h
  exact hregistered

/-- A requalification ends the revocation it was registered for. -/
theorem endsRevocation (hrun : GovernanceRun run) (hstep : step ∈ run)
    (h : Saved (contextOf step) step.input.command (some previous) record)
    (hprevious : previous.status = .revoked) (hleft : record.status ≠ .revoked) :
    EndsRevocation run step previous record := by
  obtain ⟨command, hcommand, haction⟩ := h.leaves_revoked hprevious hleft
  rw [hcommand] at h
  obtain ⟨-, hevent, -⟩ := commitGovernance_inv (hrun.step_of_mem hstep)
  cases h with
  | changed h =>
    have hother : ∀ action, command.action = action → action ≠ .requalify → False :=
      fun action hsame hne => hne (hsame.symm.trans haction)
    cases h with
    | @requalified _ terminatedAt proof registered parts _ _ hterminated hproof hregistered hparts
        hvalid =>
      rw [registered_of_requalificationParts hparts] at hregistered
      obtain ⟨hmem, hid⟩ := mem_of_registeredRequalificationApplication hregistered
      have hvalid := of_decide_eq_true hvalid
      obtain ⟨-, -, -, -, -, ⟨hmatches, -, -, -, -, hunused⟩, -⟩ := hvalid
      have hauthority : (requalifiedRecord (contextOf step) command previous proof
          parts.check).authorizationId = some step.outcome.eventId := by
        rw [hevent]
        rfl
      refine ⟨command, proof, hcommand, haction, hproof, rfl,
        registeredForRevocation hrun hstep hmem hmatches hid, ?_, hauthority, ?_⟩
      · intro earlier hearlier used hused hsame
        exact hunused ⟨earlier, hearlier, used, hused, hsame⟩
      · intro earlier hearlier
        rw [hauthority]
        exact authorizationId_fresh hrun hstep hearlier
    | granted hsame _ => exact (hother _ hsame nofun).elim
    | alerted hsame _ => exact (hother _ hsame nofun).elim
    | suspended hsame _ _ => exact (hother _ hsame nofun).elim
    | revoked hsame _ _ => exact (hother _ hsame nofun).elim
    | restored hsame _ _ => exact (hother _ hsame nofun).elim
    | undecided hsame _ _ _ => exact (hother _ hsame nofun).elim
    | checked hsame _ _ _ => exact (hother _ hsame nofun).elim
    | notExecuted hsame _ _ => exact (hother _ hsame nofun).elim
    | closed hsame _ _ _ _ => exact (hother _ hsame nofun).elim

/-- Whether a step carries a qualification command on one scope and substantive version. -/
def OneQualification (scope : QualificationScope) (version : CapabilityVersion)
    (step : GovernanceStep) : Prop :=
  ∃ command, step.input.command = .qualification command ∧ command.scope.SameScopeAs scope ∧
    command.version.SameSubstantiveVersionAs version

/-- A record saved by a qualification command changes the current one. -/
theorem change_of_mem (hrun : GovernanceRun run) (hstep : step ∈ run)
    {command : QualificationCommand} (hcommand : step.input.command = .qualification command)
    (hsaved : savedRecord step = some record) :
    ∃ current, currentSubstantiveQualification (historyOf step) command.scope command.version =
        .ok current ∧ RecordChange (contextOf step) command current record := by
  obtain ⟨-, -, hadjudicated⟩ := commitGovernance_inv (hrun.step_of_mem hstep)
  obtain ⟨binding, inner, houtcome, ⟨reason, rfl⟩ | hinner⟩ :=
    adjudicated_of_governance hadjudicated
  · unfold savedRecord at hsaved
    rw [houtcome] at hsaved
    exact nomatch hsaved
  · rw [hcommand] at hinner
    unfold savedRecord at hsaved
    rw [houtcome] at hsaved
    exact change_of_adjudicate hinner hsaved

/-- Where all records match, the current one is the only head of the history. -/
theorem currentQualificationMatching_eq {scope : QualificationScope}
    {matchesVersion : CapabilityVersion → Bool} {message : String}
    (hsuccession : Succession (·.decisionId) (·.previousDecisionId) (qualificationRecords history))
    (hmatches : ∀ record ∈ qualificationRecords history,
      record.scope.SameScopeAs scope ∧ matchesVersion record.version) :
    currentQualificationMatching history scope matchesVersion message =
      .ok (qualificationRecords history).getLast? := by
  have hall : (qualificationRecords history).filter (fun record =>
      record.scope.SameScopeAs scope ∧ matchesVersion record.version) =
      qualificationRecords history :=
    List.filter_eq_self.mpr fun record hrecord => decide_eq_true (hmatches record hrecord)
  have hheads := hsuccession.heads_eq
  unfold currentQualificationMatching
  dsimp only
  rw [hall, hheads]
  cases (qualificationRecords history).getLast? <;> rfl

/-- Whether the records of a history are those of one qualification, in the order of their
supersession. -/
def OneSuccession (scope : QualificationScope) (version : CapabilityVersion)
    (records : List QualificationRecord) : Prop :=
  Succession (·.decisionId) (·.previousDecisionId) records ∧
    ∀ record ∈ records, record.scope.SameScopeAs scope ∧
      record.version.SameSubstantiveVersionAs version

/-- The current record of one qualification is the last one saved. -/
theorem OneSuccession.current_eq {scope : QualificationScope} {version : CapabilityVersion}
    (h : OneSuccession scope version (qualificationRecords history))
    {command : QualificationCommand} (hscope : command.scope.SameScopeAs scope)
    (hversion : command.version.SameSubstantiveVersionAs version) :
    currentSubstantiveQualification history command.scope command.version =
      .ok (qualificationRecords history).getLast? := by
  refine currentQualificationMatching_eq h.1 fun record hrecord => ?_
  obtain ⟨hrecordScope, hrecordVersion⟩ := h.2 record hrecord
  exact ⟨hrecordScope.trans hscope.symm, decide_eq_true (hrecordVersion.trans hversion.symm)⟩

/-- The scope and version of a saved record are those of its command, or of the record it
changes. -/
theorem RecordChange.scope_version {command : QualificationCommand}
    {previous : Option QualificationRecord} (h : RecordChange context command previous record) :
    (record.scope = command.scope ∧ record.version = command.version) ∨
      ∃ current ∈ previous, record.scope = current.scope ∧ record.version = current.version := by
  cases h with
  | notObtained haction => exact .inl ⟨rfl, rfl⟩
  | granted haction _ => exact .inl ⟨rfl, rfl⟩
  | requalified haction _ _ _ _ _ _ => exact .inl ⟨rfl, rfl⟩
  | @alerted current haction _ =>
    obtain ⟨_, _, _, hframe⟩ := restrictExpiredQualification_frame current context.now
    exact .inr ⟨current, rfl, by simp only [alertedRecord, hframe], by simp only [alertedRecord,
      hframe]⟩
  | @undecided current _ _ haction _ _ _ =>
    obtain ⟨_, _, _, hframe⟩ := restrictExpiredQualification_frame current context.now
    exact .inr ⟨current, rfl, by simp only [disposedRecord, hframe], by simp only [disposedRecord,
      hframe]⟩
  | @checked current _ _ _ haction _ _ _ =>
    obtain ⟨_, _, _, hframe⟩ := restrictExpiredQualification_frame current context.now
    exact .inr ⟨current, rfl, by simp only [checkedRecord, disposedRecord, hframe],
      by simp only [checkedRecord, disposedRecord, hframe]⟩
  | suspended haction _ _ => exact .inr ⟨_, rfl, rfl, rfl⟩
  | revoked haction _ _ => exact .inr ⟨_, rfl, rfl, rfl⟩
  | restored haction _ _ => exact .inr ⟨_, rfl, rfl, rfl⟩
  | notExecuted haction _ _ => exact .inr ⟨_, rfl, rfl, rfl⟩
  | closed haction _ _ _ _ => exact .inr ⟨_, rfl, rfl, rfl⟩

/-- The records of one qualification supersede one another in the order they were saved. -/
theorem succession_of_one (hrun : GovernanceRun run) {scope : QualificationScope}
    {version : CapabilityVersion} (hone : ∀ step ∈ run, OneQualification scope version step) :
    OneSuccession scope version (savedRecords run) := by
  induction hrun with
  | nil => exact ⟨succession_nil, fun _ hrecord => absurd hrecord List.not_mem_nil⟩
  | @snoc run input fact hrun hcommit ih =>
    let step : GovernanceStep := ⟨outcomes run, input, fact⟩
    have hstep : step ∈ run ++ [step] := List.mem_append_right _ (List.mem_singleton_self _)
    have hbefore := ih fun s hs => hone s (List.mem_append_left _ hs)
    have hsplit : savedRecords (run ++ [step]) = savedRecords run ++ (savedRecord step).toList := by
      unfold savedRecords
      rw [List.filterMap_append]
      cases hsaved : savedRecord step <;> simp [hsaved]
    rw [hsplit]
    cases hsaved : savedRecord step with
    | none =>
      rw [Option.toList_none, List.append_nil]
      exact hbefore
    | some record =>
      obtain ⟨command, hcommand, hscope, hversion⟩ := hone step hstep
      obtain ⟨current, hcurrent, hchange⟩ :=
        change_of_mem (hrun.snoc hcommit) hstep hcommand hsaved
      have hrecords : qualificationRecords (historyOf step) = savedRecords run :=
        qualificationRecords_outcomes run
      have hlast : current = (savedRecords run).getLast? := by
        rw [OneSuccession.current_eq (hrecords ▸ hbefore) hscope hversion, hrecords] at hcurrent
        exact (Except.ok.inj hcurrent).symm
      obtain ⟨hid, hlink⟩ := (Saved.changed hchange).ids
      refine ⟨hbefore.1.snoc ?_ (hlast ▸ hlink), ?_⟩
      · intro hmem
        obtain ⟨other, hother, hsame⟩ := List.mem_map.mp hmem
        obtain ⟨otherStep, hotherStep, hotherSaved⟩ := mem_savedRecords.mp hother
        obtain ⟨hnew, -, -⟩ := commitGovernance_inv hcommit
        have hevent := decisionId_of_saved hrun hotherStep hotherSaved
        refine hnew (List.mem_map.mpr ⟨otherStep.outcome, List.mem_map_of_mem hotherStep, ?_⟩)
        rw [← hevent, hsame]
        exact hid
      · intro other hother
        rcases List.mem_append.mp hother with hother | hother
        · exact hbefore.2 other hother
        · rw [Option.toList_some, List.mem_singleton] at hother
          subst hother
          rcases hchange.scope_version with ⟨hsame, hsame'⟩ | ⟨changed, hchanged, hsame, hsame'⟩
          · exact ⟨hsame ▸ hscope, hsame' ▸ hversion⟩
          · have hchangedMem : changed ∈ savedRecords run := by
              rw [hlast] at hchanged
              exact List.mem_of_getLast? hchanged
            obtain ⟨hchangedScope, hchangedVersion⟩ := hbefore.2 changed hchangedMem
            exact ⟨hsame ▸ hchangedScope, hsame' ▸ hchangedVersion⟩

/-- What a step of one qualification saves changes the last record before it. -/
theorem change_of_one (hrun : GovernanceRun run) {scope : QualificationScope}
    {version : CapabilityVersion} (hone : ∀ step ∈ run, OneQualification scope version step)
    (hstep : step ∈ run) (hsaved : savedRecord step = some record) :
    ∃ command, step.input.command = .qualification command ∧
      RecordChange (contextOf step) command (qualificationRecords (historyOf step)).getLast?
        record := by
  obtain ⟨command, hcommand, hscope, hversion⟩ := hone step hstep
  obtain ⟨current, hcurrent, hchange⟩ := change_of_mem hrun hstep hcommand hsaved
  obtain ⟨earlier, later, rfl, hearlier, hbefore⟩ := hrun.exists_split hstep
  have hrecords : qualificationRecords (historyOf step) = savedRecords earlier := by
    unfold historyOf
    rw [hbefore, qualificationRecords_outcomes]
  have hsuccession := succession_of_one hearlier fun s hs => hone s (List.mem_append_left _ hs)
  rw [OneSuccession.current_eq (hrecords ▸ hsuccession) hscope hversion] at hcurrent
  exact ⟨command, hcommand, Except.ok.inj hcurrent ▸ hchange⟩

/-- The life cycle of one qualification: standing and restrictions exclude one another, a
suspension is only left by answering every restriction or by revocation, a revocation only by a
requalification registered for it, and nothing else returns a restricted record to standing. -/
theorem qualification_lifeCycle {scope : QualificationScope} {version : CapabilityVersion}
    (hrun : GovernanceRun run) (hone : ∀ step ∈ run, OneQualification scope version step) :
    ∀ step ∈ run, ∀ record, savedRecord step = some record →
      (record.status = .valid ∨ record.status = .atRisk → record.restrictions = []) ∧
      (record.status = .suspended → record.restrictions ≠ []) ∧
      (∀ now, record.status = .suspended ∨ record.status = .revoked →
        (restrictExpiredQualification record now).status = record.status) ∧
      (∀ command, step.input.command = .qualification command → command.action = .formalCheck →
        formalCheckPassed command.evidence = some false →
          record.status = .suspended ∨ record.status = .revoked) ∧
      ∀ previous, (qualificationRecords (historyOf step)).getLast? = some previous →
        (previous.status = .suspended → record.status ≠ .suspended →
          ∃ command, step.input.command = .qualification command ∧
            (command.action = .restore ∧ AnswersEveryRestriction (contextOf step) command previous ∨
              command.action = .revoke ∧ record.status = .revoked)) ∧
        (previous.status = .revoked → record.status ≠ .revoked →
          EndsRevocation run step previous record) ∧
        ∀ command, step.input.command = .qualification command →
          command.action ∈ [.formalCheck, .recordFormalNode, .alert, .closeAlert] →
          previous.status = .suspended ∨ previous.status = .revoked →
            record.status = previous.status := by
  intro step hstep record hsaved
  have hfits := forall_saved (P := RestrictionsFit) hrun
    (fun _ _ _ _ _ hchange hprevious =>
      hchange.restrictionsFit fun current hcurrent => (hprevious current hcurrent).2) record
    (mem_savedRecords.mpr ⟨step, hstep, hsaved⟩)
  have hunobtained := forall_saved (P := UnobtainedFit) hrun
    (fun _ _ _ _ _ hchange hprevious =>
      hchange.unobtainedFit fun current hcurrent => (hprevious current hcurrent).2)
  obtain ⟨change, hchange, hrecordChange⟩ := change_of_one hrun hone hstep hsaved
  refine ⟨fun hstanding => ?_, hfits.2, fun now hrestricted => ?_, ?_, ?_⟩
  · refine hfits.1 ?_ ?_ <;> rcases hstanding with hstatus | hstatus <;> simp [hstatus]
  · rcases restrictExpiredQualification_status record now with hsame | ⟨hstatus, hsuspended, -⟩
    · rw [hsame]
    · rcases hrestricted with hrestricted | hrestricted
      · rw [hsuspended, hrestricted]
      · simp [hrestricted] at hstatus
  · intro command hcommand haction hfailed
    obtain rfl : change = command :=
      GovernanceCommand.qualification.inj (hchange.symm.trans hcommand)
    cases hlast : (qualificationRecords (historyOf step)).getLast? with
    | none =>
      rw [hlast] at hrecordChange
      cases hrecordChange with
      | notObtained hsame => exact nomatch hsame.symm.trans haction
      | granted hsame _ => exact nomatch hsame.symm.trans haction
    | some previous =>
      rw [hlast] at hrecordChange
      have hmem := history_subset hrun hstep (List.mem_of_getLast? hlast)
      exact hrecordChange.failed_check (hunobtained previous hmem) haction hfailed
  · intro previous hlast
    rw [hlast] at hrecordChange
    have hsavedChange : Saved (contextOf step) step.input.command (some previous) record := by
      rw [hchange]
      exact .changed hrecordChange
    refine ⟨hsavedChange.leaves_suspended, endsRevocation hrun hstep hsavedChange, ?_⟩
    intro command hcommand haction hrestricted
    by_contra hne
    rcases hrestricted with hstatus | hstatus
    · rw [hstatus] at hne
      obtain ⟨other, hother, hcases⟩ := hsavedChange.leaves_suspended hstatus hne
      obtain rfl := GovernanceCommand.qualification.inj (hother.symm.trans hcommand)
      rcases hcases with ⟨hsame, -⟩ | ⟨hsame, -⟩ <;> simp [hsame] at haction
    · rw [hstatus] at hne
      obtain ⟨other, hother, hsame⟩ := hsavedChange.leaves_revoked hstatus hne
      obtain rfl := GovernanceCommand.qualification.inj (hother.symm.trans hcommand)
      simp [hsame] at haction

namespace SampleQualification

def implementation : DecisionCaseVersionBundle :=
  ⟨"5", "1", "1", "sha", "agent", "1", "adapter", "1", "1", "1", "0.5.1", "url", "wheel",
    "commit"⟩

/-- The sample policy: evidence lasts six months and state activity one. -/
def policy : QualificationPolicy where
  policyVersion := "policy-1"
  generatorVersion := "generator-1"
  seed := 1
  evaluationMaxAgeMonths := 6
  stateActivityMaxAgeMonths := 1
  requireStateActivity := true
  diagnosticClearNodeCount := some 2

def version : CapabilityVersion := ⟨"version-1", "policy-1", implementation, some policy⟩

def scope : QualificationScope where
  capability := "EXIT"
  purpose := "D0"
  userId := "user-1"
  accountIds := ["account-1"]
  accountType := "SIMULATED_CASH"
  source := "synthetic"
  marketState := "NORMAL"
  board := "MAIN"
  target := "target-1"

def day (n : ℤ) : Instant := n * microsecondsPerDay

/-- Digests that do not tell documents apart; the sample evidence has no basis. -/
def digests : Digests :=
  ⟨fun _ => "", fun _ => "", fun _ => "", fun _ => "", fun _ => "", fun _ => ""⟩

/-- Evidence that is evaluated, available and active at one instant. -/
def evidence (evidenceId : String) (kind : EvidenceKind) (t : Instant) : QualificationEvidence where
  evidenceId := evidenceId
  generatorVersion := "generator-1"
  seed := 1
  version := version
  scope := scope
  kind := kind
  digest := "digest"
  evaluationEnd := t
  availableAt := t
  expiresAt := t + day 1000
  stateActivityEnd := some t

def command (action : QualificationAction) (previousDecisionId : Option String)
    (evidence : QualificationEvidence) : QualificationCommand where
  action := action
  scope := scope
  version := version
  previousDecisionId := previousDecisionId
  evidence := evidence

/-- A command committed at the instant its evidence becomes available. -/
def input (eventId : String) (command : QualificationCommand) : GovernanceInput where
  digests := digests
  eventId := eventId
  now := command.evidence.availableAt
  cutoff := command.evidence.availableAt
  command := .qualification command

def runOf (inputs : List GovernanceInput) : List GovernanceStep :=
  traceSome commitGovernance inputs

theorem governanceRun_runOf (inputs : List GovernanceInput) : GovernanceRun (runOf inputs) :=
  historyRun_traceSome commitGovernance inputs

def granting : GovernanceInput :=
  input "event-1" (command .grant none (evidence "evidence-1" .qualificationPass (day 0)))

def suspending : GovernanceInput := input "event-2" (command .suspend (some "event-1")
  (evidence "evidence-2" .requiredPremiseUnverifiable (day 1)))

def revoking : GovernanceInput := input "event-3" (command .revoke (some "event-2")
  (evidence "evidence-3" .originalBasisInvalid (day 2)))

/-- Every sample command is one on the sample qualification. -/
theorem oneQualification_runOf {inputs : List GovernanceInput}
    (hinputs : ∀ input ∈ inputs, ∃ command, input.command = .qualification command ∧
      command.scope = scope ∧ command.version = version) :
    ∀ step ∈ runOf inputs, OneQualification scope version step := by
  intro step hstep
  have hmem : step.input ∈ inputs :=
    (inputs_traceSome_sublist commitGovernance inputs).subset (List.mem_map_of_mem hstep)
  obtain ⟨command, hcommand, hscope, hversion⟩ := hinputs step.input hmem
  exact ⟨command, hcommand, hscope ▸ .refl scope, hversion ▸ .refl version⟩

def lifeCycle : List GovernanceInput := [granting, suspending, revoking]

/-- The sample qualification leaves its suspension by revocation. -/
theorem sample_lifeCycle : (savedRecords (runOf lifeCycle)).map (·.status) =
      [.valid, .suspended, .revoked] ∧
    ∀ step ∈ runOf lifeCycle, ∀ record, savedRecord step = some record →
      record.status = .suspended → record.restrictions ≠ [] := by
  refine ⟨by decide +kernel, fun step hstep record hsaved => ?_⟩
  have hone : ∀ step ∈ runOf lifeCycle, OneQualification scope version step := by
    refine oneQualification_runOf fun input hinput => ?_
    simp only [lifeCycle, List.mem_cons, List.not_mem_nil, or_false] at hinput
    rcases hinput with rfl | rfl | rfl
    · exact ⟨_, rfl, rfl, rfl⟩
    · exact ⟨_, rfl, rfl, rfl⟩
    · exact ⟨_, rfl, rfl, rfl⟩
  exact (qualification_lifeCycle (governanceRun_runOf lifeCycle) hone step hstep record hsaved).2.1

end SampleQualification

end StockProfiler.Qualification
