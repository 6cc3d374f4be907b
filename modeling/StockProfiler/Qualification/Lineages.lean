import StockProfiler.Qualification.RecordChanges

/-!
# Runs of the governance host and lineages of records

A run commits outcomes one after another, each adjudicated with the outcomes
before it. Every saved record names the record it supersedes, and the steps from
the first record of a qualification to a later one are its lineage.
-/

namespace StockProfiler.Qualification

/-- One committed step of the governance host. -/
abbrev GovernanceStep := HistoryStep GovernanceInput GovernanceFact

/-- A run of the governance host. Commands whose outcome is not retained are left out. -/
abbrev GovernanceRun (run : List GovernanceStep) : Prop :=
  HistoryRun (fun before input fact => commitGovernance before input = some fact) run

/-- The outcomes that a step was adjudicated with. -/
def historyOf (step : GovernanceStep) : List GovernanceOutcome := step.before.map (·.outcome)

/-- What a step was adjudicated with. -/
def contextOf (step : GovernanceStep) : AdjudicationContext := step.input.context step.before

/-- The record that a step saved. -/
def savedRecord (step : GovernanceStep) : Option QualificationRecord :=
  step.outcome.outcome.qualification

/-- The records that a run saved. -/
def savedRecords (run : List GovernanceStep) : List QualificationRecord :=
  run.filterMap savedRecord

theorem mem_savedRecords {run : List GovernanceStep} {record : QualificationRecord} :
    record ∈ savedRecords run ↔ ∃ step ∈ run, savedRecord step = some record :=
  List.mem_filterMap

/-- The records of a history are the ones that the run before it saved. -/
theorem qualificationRecords_outcomes (run : List GovernanceStep) :
    qualificationRecords ((outcomes run).map (·.outcome)) = savedRecords run := by
  unfold qualificationRecords savedRecords outcomes savedRecord
  rw [List.filterMap_map, List.filterMap_map]
  rfl

/-- How a step of the host changes the current record. -/
inductive Saved (context : AdjudicationContext) :
    GovernanceCommand → Option QualificationRecord → QualificationRecord → Prop where
  | changed {command : QualificationCommand} {previous : Option QualificationRecord}
      {record : QualificationRecord} (h : RecordChange context command previous record) :
      Saved context (.qualification command) previous record
  | expired {command : UseTaskCommand} {previous record : QualificationRecord}
      (h : expiredByUse context previous = some record) :
      Saved context (.useTask command) (some previous) record

section CurrentRecord

variable {history : List GovernanceOutcome} {scope : QualificationScope}
  {matchesVersion : CapabilityVersion → Bool} {message : String} {record : QualificationRecord}

theorem mem_of_currentQualificationMatching
    (h : currentQualificationMatching history scope matchesVersion message = .ok (some record)) :
    record ∈ qualificationRecords history ∧ record.scope.SameScopeAs scope ∧
      matchesVersion record.version := by
  unfold currentQualificationMatching at h
  dsimp only at h
  split at h
  · exact nomatch h
  · rename_i head hheads
    cases h
    have hhead := hheads ▸ List.mem_singleton_self record
    have hmatching := (List.mem_filter.mp hhead).1
    obtain ⟨hmem, hmatches⟩ := List.mem_filter.mp hmatching
    have hboth := of_decide_eq_true hmatches
    exact ⟨hmem, hboth.1, hboth.2⟩
  · exact nomatch h

end CurrentRecord

section Steps

variable {command : GovernanceCommand} {outcome : GovernanceOutcome}
  {qualification : Option QualificationRecord} {context : AdjudicationContext}

/-- The expiry of a record keeps its identity and what it authorizes. -/
theorem restrictExpiredQualification_frame (record : QualificationRecord) (now : Instant) :
    ∃ status cause restrictions, restrictExpiredQualification record now =
      { record with status, cause, restrictions } := by
  unfold restrictExpiredQualification
  split
  · exact ⟨record.status, record.cause, record.restrictions, rfl⟩
  · exact ⟨_, _, _, rfl⟩

@[simp] theorem restrictExpiredQualification_decisionId (record : QualificationRecord)
    (now : Instant) : (restrictExpiredQualification record now).decisionId = record.decisionId := by
  obtain ⟨_, _, _, h⟩ := restrictExpiredQualification_frame record now
  rw [h]

/-- A qualification command is denied, or its action is carried out on the current record. -/
theorem carried_of_adjudicate {command : QualificationCommand}
    (h : adjudicate context command = .ok outcome) :
    (∃ reason, outcome = denied reason) ∨
      ∃ previous, currentSubstantiveQualification context.history command.scope command.version =
          .ok previous ∧ carryOut context command previous = .ok outcome := by
  unfold adjudicate at h
  have hdenied : ∀ reason, (.ok (denied reason) : Except String _) = .ok outcome →
      ∃ reason, outcome = denied reason := fun reason heq => ⟨reason, (Except.ok.inj heq).symm⟩
  split at h
  · exact .inl (hdenied _ h)
  · split at h
    · exact .inl (hdenied _ h)
    · split at h
      · exact .inl (hdenied _ h)
      · split at h
        · exact .inl (hdenied _ h)
        · obtain ⟨previous, hprevious, h⟩ := bind_eq_ok.mp h
          split at h
          · exact .inl (hdenied _ h)
          · split at h
            · exact .inl (hdenied _ h)
            · exact .inr ⟨previous, hprevious, h⟩

/-- A qualification command saves a change of the current record of its scope and version. -/
theorem change_of_adjudicate {command : QualificationCommand} {record : QualificationRecord}
    (h : adjudicate context command = .ok outcome) (hrecord : outcome.qualification = some record) :
    ∃ previous, currentSubstantiveQualification context.history command.scope command.version =
        .ok previous ∧ RecordChange context command previous record := by
  rcases carried_of_adjudicate h with ⟨reason, rfl⟩ | ⟨previous, hprevious, hcarried⟩
  · exact nomatch hrecord
  · exact ⟨previous, hprevious, change_of_carryOut hcarried hrecord⟩

/-- The use of a task saves a record only when the current one has expired. -/
theorem expired_of_useTask {command : UseTaskCommand} {record : QualificationRecord}
    (h : (useTask context command qualification).qualification = some record) :
    ∃ previous, qualification = some previous ∧ expiredByUse context previous = some record := by
  unfold useTask at h
  split at h
  · exact nomatch h
  · dsimp only at h
    split at h
    · exact nomatch h
    · exact bind_eq_some.mp h

theorem activateVersion_qualification {command : ActivateVersionCommand}
    (h : activateVersion context command qualification = .ok outcome) :
    outcome.qualification = none := by
  unfold activateVersion at h
  obtain ⟨current, -, h⟩ := bind_eq_ok.mp h
  repeat' split at h
  all_goals
    cases h
    rfl

theorem freezeTask_qualification {command : FreezeTaskCommand}
    (h : freezeTask context command qualification = .ok outcome) :
    outcome.qualification = none := by
  unfold freezeTask at h
  dsimp only at h
  split at h
  · cases h
    rfl
  · split at h
    · cases h
      rfl
    · obtain ⟨active, -, h⟩ := bind_eq_ok.mp h
      cases h
      rfl

/-- The host saves a change of a current record, or its expiry. -/
theorem saved_of_adjudicateVersions {record : QualificationRecord}
    (h : adjudicateVersions context command = .ok outcome)
    (hrecord : outcome.qualification = some record) :
    ∃ previous, Saved context command previous record ∧
      ∀ current ∈ previous, current ∈ qualificationRecords context.history := by
  cases command with
  | qualification command =>
    obtain ⟨previous, hprevious, hchange⟩ := change_of_adjudicate h hrecord
    refine ⟨previous, .changed hchange, fun current hcurrent => ?_⟩
    rw [Option.mem_def.mp hcurrent] at hprevious
    exact (mem_of_currentQualificationMatching hprevious).1
  | registerTaskNode command =>
    have houtcome : registerTaskNode context command = outcome := Except.ok.inj h
    rw [← houtcome] at hrecord
    unfold registerTaskNode at hrecord
    split at hrecord
    · exact nomatch hrecord
    · exact nomatch hrecord
  | activateVersion command =>
    obtain ⟨qualification, -, h⟩ := bind_eq_ok.mp h
    rw [activateVersion_qualification h] at hrecord
    exact nomatch hrecord
  | freezeTask command =>
    obtain ⟨qualification, -, h⟩ := bind_eq_ok.mp h
    rw [freezeTask_qualification h] at hrecord
    exact nomatch hrecord
  | useTask command =>
    obtain ⟨qualification, hqualification, h⟩ := bind_eq_ok.mp h
    cases h
    obtain ⟨previous, rfl, hexpired⟩ := expired_of_useTask hrecord
    refine ⟨some previous, .expired hexpired, fun current hcurrent => ?_⟩
    cases hcurrent
    exact (mem_of_currentQualificationMatching hqualification).1

/-- The host denies a command, or binds the policy of what is adjudicated. -/
theorem adjudicated_of_governance {met : Bool}
    (h : adjudicateGovernance context command met = .ok outcome) :
    ∃ binding inner, outcome = { inner with policyBinding := binding } ∧
      ((∃ reason, inner = denied reason) ∨ adjudicateVersions context command = .ok inner) := by
  unfold adjudicateGovernance at h
  generalize hinner : adjudicateVersions context command = result at h ⊢
  dsimp only at h
  split at h
  · cases h
    exact ⟨_, _, rfl, .inl ⟨_, rfl⟩⟩
  · split at h
    · cases h
      exact ⟨none, _, rfl, .inl ⟨_, rfl⟩⟩
    · obtain ⟨inner, rfl, h⟩ := bind_eq_ok.mp h
      cases h
      exact ⟨_, inner, rfl, .inr rfl⟩

/-- The host saves a change of a current record, or its expiry. -/
theorem saved_of_adjudicateGovernance {met : Bool} {record : QualificationRecord}
    (h : adjudicateGovernance context command met = .ok outcome)
    (hrecord : outcome.qualification = some record) :
    ∃ previous, Saved context command previous record ∧
      ∀ current ∈ previous, current ∈ qualificationRecords context.history := by
  obtain ⟨binding, inner, rfl, ⟨reason, rfl⟩ | hinner⟩ := adjudicated_of_governance h
  · exact nomatch hrecord
  · exact saved_of_adjudicateVersions hinner hrecord

/-- A saved record has the identity of its event and names the record it supersedes. -/
theorem Saved.ids {previous : Option QualificationRecord} {record : QualificationRecord}
    (h : Saved context command previous record) :
    record.decisionId = context.eventId ∧
      record.previousDecisionId = previous.map (·.decisionId) := by
  cases h with
  | changed h =>
    cases h <;> constructor <;>
      simp [notObtainedRecord, grantedRecord, alertedRecord, restrictedRecord, restoredRecord,
        requalifiedRecord, disposedRecord, checkedRecord, closedRecord]
  | expired h =>
    unfold expiredByUse at h
    dsimp only at h
    split at h
    · exact nomatch h
    · cases h
      exact ⟨rfl, rfl⟩

end Steps

section Runs

variable {run : List GovernanceStep} {step : GovernanceStep} {record : QualificationRecord}

theorem commitGovernance_inv {before : List GovernanceFact} {input : GovernanceInput}
    {fact : GovernanceFact} (h : commitGovernance before input = some fact) :
    input.eventId ∉ before.map (·.eventId) ∧ fact.eventId = input.eventId ∧
      adjudicateGovernance (input.context before) input.command
        input.businessPrerequisiteMet = .ok fact.outcome := by
  unfold commitGovernance at h
  split at h
  · exact nomatch h
  · rename_i hnew
    split at h
    · exact nomatch h
    · rename_i outcome houtcome
      cases h
      exact ⟨hnew, rfl, houtcome⟩

variable (hrun : GovernanceRun run)
include hrun

theorem eventIds_nodup : (run.map (·.outcome.eventId)).Nodup := by
  induction hrun with
  | nil => exact List.nodup_nil
  | @snoc run input fact _ hstep ih =>
    obtain ⟨hnew, hid, -⟩ := commitGovernance_inv hstep
    rw [List.map_append, List.map_singleton]
    refine ih.append (List.nodup_singleton _) (List.disjoint_singleton.mpr ?_)
    have hmap : run.map (·.outcome.eventId) = (outcomes run).map (·.eventId) := by
      simp [outcomes]
    rw [hmap, hid]
    exact hnew

/-- What a step of a run saves is a change, or the expiry, of an earlier record. -/
theorem saved_of_mem (hstep : step ∈ run) (hsaved : savedRecord step = some record) :
    ∃ previous, Saved (contextOf step) step.input.command previous record ∧
      ∀ current ∈ previous, current ∈ qualificationRecords (historyOf step) := by
  obtain ⟨-, -, hadjudicated⟩ := commitGovernance_inv (hrun.step_of_mem hstep)
  exact saved_of_adjudicateGovernance hadjudicated hsaved

/-- A record has the identity of the event that saved it. -/
theorem decisionId_of_saved (hstep : step ∈ run)
    (hsaved : savedRecord step = some record) : record.decisionId = step.outcome.eventId := by
  obtain ⟨previous, hprevious, -⟩ := saved_of_mem hrun hstep hsaved
  obtain ⟨-, hid, -⟩ := commitGovernance_inv (hrun.step_of_mem hstep)
  exact hprevious.ids.1.trans hid.symm

theorem step_unique {other : GovernanceStep} {otherRecord : QualificationRecord}
    (hstep : step ∈ run) (hother : other ∈ run) (hsaved : savedRecord step = some record)
    (hsaved' : savedRecord other = some otherRecord)
    (hid : record.decisionId = otherRecord.decisionId) : step = other := by
  have hevent : step.outcome.eventId = other.outcome.eventId := by
    rw [← decisionId_of_saved hrun hstep hsaved, hid, decisionId_of_saved hrun hother hsaved']
  exact List.inj_on_of_nodup_map (eventIds_nodup hrun) hstep hother hevent

theorem record_unique {other : QualificationRecord}
    (hrecord : record ∈ savedRecords run) (hother : other ∈ savedRecords run)
    (hid : record.decisionId = other.decisionId) : record = other := by
  obtain ⟨step, hstep, hsaved⟩ := mem_savedRecords.mp hrecord
  obtain ⟨otherStep, hotherStep, hsaved'⟩ := mem_savedRecords.mp hother
  have hsame := step_unique hrun hstep hotherStep hsaved hsaved' hid
  rw [← hsame, hsaved] at hsaved'
  exact Option.some.inj hsaved'

/-- The steps before one of a run saved the records of its history. -/
theorem history_subset (hstep : step ∈ run) :
    qualificationRecords (historyOf step) ⊆ savedRecords run := by
  obtain ⟨earlier, later, rfl, -, hbefore⟩ := hrun.exists_split hstep
  unfold historyOf
  rw [hbefore, qualificationRecords_outcomes]
  intro record hrecord
  unfold savedRecords at hrecord ⊢
  rw [List.filterMap_append]
  exact List.mem_append_left _ hrecord

end Runs

/-- The steps of a run from the first record of a qualification to a later one. -/
inductive Lineage (run : List GovernanceStep) :
    List GovernanceStep → QualificationRecord → Prop where
  | first {step : GovernanceStep} {record : QualificationRecord} (hstep : step ∈ run)
      (hsaved : savedRecord step = some record) (hroot : record.previousDecisionId = none) :
      Lineage run [step] record
  | next {steps : List GovernanceStep} {previous : QualificationRecord} {step : GovernanceStep}
      {record : QualificationRecord} (h : Lineage run steps previous) (hstep : step ∈ run)
      (hsaved : savedRecord step = some record)
      (hlink : record.previousDecisionId = some previous.decisionId) :
      Lineage run (steps ++ [step]) record

namespace Lineage

variable {run steps : List GovernanceStep} {record : QualificationRecord}

theorem mem (h : Lineage run steps record) : record ∈ savedRecords run := by
  cases h with
  | first hstep hsaved _ => exact mem_savedRecords.mpr ⟨_, hstep, hsaved⟩
  | next _ hstep hsaved _ => exact mem_savedRecords.mpr ⟨_, hstep, hsaved⟩

/-- A lineage of a run is one of every run with its steps. -/
theorem mono {longer : List GovernanceStep} (h : Lineage run steps record) (hsub : run ⊆ longer) :
    Lineage longer steps record := by
  induction h with
  | first hstep hsaved hroot => exact .first (hsub hstep) hsaved hroot
  | next _ hstep hsaved hlink ih => exact .next ih (hsub hstep) hsaved hlink

theorem subset (h : Lineage run steps record) : steps ⊆ run := by
  induction h with
  | first hstep _ _ => exact List.cons_subset.mpr ⟨hstep, List.nil_subset _⟩
  | next _ hstep _ _ ih =>
    exact List.append_subset.mpr ⟨ih, List.cons_subset.mpr ⟨hstep, List.nil_subset _⟩⟩

theorem exists_of_mem (hrun : GovernanceRun run) (hrecord : record ∈ savedRecords run) :
    ∃ steps, Lineage run steps record := by
  induction hrun generalizing record with
  | nil => exact nomatch hrecord
  | @snoc run input fact hrun hcommit ih =>
    have hsub : run ⊆ run ++ [⟨outcomes run, input, fact⟩] := List.subset_append_left ..
    obtain ⟨step, hstep, hsaved⟩ := mem_savedRecords.mp hrecord
    rcases List.mem_append.mp hstep with hearlier | hlast
    · obtain ⟨steps, hsteps⟩ := ih (mem_savedRecords.mpr ⟨step, hearlier, hsaved⟩)
      exact ⟨steps, hsteps.mono hsub⟩
    · obtain ⟨previous, hchange, hmem⟩ := saved_of_mem (hrun.snoc hcommit) hstep hsaved
      have hlink := hchange.ids.2
      cases previous with
      | none => exact ⟨_, .first hstep hsaved hlink⟩
      | some current =>
        have hcurrent := hmem current rfl
        rw [List.mem_singleton.mp hlast] at hcurrent
        unfold historyOf at hcurrent
        rw [qualificationRecords_outcomes] at hcurrent
        obtain ⟨steps, hsteps⟩ := ih hcurrent
        exact ⟨_, .next (hsteps.mono hsub) hstep hsaved hlink⟩

/-- What the first step of a lineage establishes and every further step preserves holds of it. -/
theorem induct {P : List GovernanceStep → QualificationRecord → Prop} (hrun : GovernanceRun run)
    (hfirst : ∀ step ∈ run, ∀ record, savedRecord step = some record →
      Saved (contextOf step) step.input.command none record → P [step] record)
    (hnext : ∀ steps previous, ∀ step ∈ run, ∀ record, Lineage run steps previous →
      P steps previous → savedRecord step = some record →
      Saved (contextOf step) step.input.command (some previous) record →
      P (steps ++ [step]) record) (h : Lineage run steps record) : P steps record := by
  induction h with
  | @first step record hstep hsaved hroot =>
    obtain ⟨previous, hchange, -⟩ := saved_of_mem hrun hstep hsaved
    have hlink := hchange.ids.2
    cases previous with
    | none => exact hfirst step hstep record hsaved hchange
    | some current =>
      rw [hroot] at hlink
      exact nomatch hlink
  | @next steps previous step record hprevious hstep hsaved hlink ih =>
    obtain ⟨found, hchange, hmem⟩ := saved_of_mem hrun hstep hsaved
    have hid := hchange.ids.2
    rw [hlink] at hid
    cases found with
    | none => exact nomatch hid
    | some current =>
      have hsame : current = previous :=
        record_unique hrun (history_subset hrun hstep (hmem current rfl)) hprevious.mem
          (Option.some.inj hid).symm
      subst hsame
      exact hnext steps current step hstep record hprevious ih hsaved hchange

end Lineage

theorem forall_saved {run : List GovernanceStep} {P : QualificationRecord → Prop}
    (hrun : GovernanceRun run)
    (hP : ∀ step ∈ run, ∀ previous record, savedRecord step = some record →
      Saved (contextOf step) step.input.command previous record →
        (∀ current ∈ previous, current ∈ savedRecords run ∧ P current) → P record) :
    ∀ record ∈ savedRecords run, P record := by
  intro record hrecord
  obtain ⟨steps, hsteps⟩ := Lineage.exists_of_mem hrun hrecord
  refine hsteps.induct (P := fun _ record => P record) hrun ?_ ?_
  · exact fun step hstep record hsaved hchange => hP step hstep none record hsaved hchange
      fun _ hnone => absurd hnone (Option.not_mem_none _)
  · intro _ previous step hstep record hlineage hprevious hsaved hchange
    refine hP step hstep (some previous) record hsaved hchange fun current hcurrent => ?_
    exact Option.some.inj hcurrent ▸ ⟨hlineage.mem, hprevious⟩

end StockProfiler.Qualification
