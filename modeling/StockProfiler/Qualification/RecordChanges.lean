import StockProfiler.Core.History
import StockProfiler.Qualification.Governance

/-!
# What a command does to a record

Every record that governance saves comes from the current record of its scope and
version by one action, or by the expiry that the use of a task reveals. All
invariants of records follow from this one inversion.
-/

namespace StockProfiler.Qualification

variable {current : QualificationRecord} {previous : Option QualificationRecord}
  {record : QualificationRecord} {outcome : GovernanceOutcome} {context : AdjudicationContext}
  {command : QualificationCommand}

/-- How an approved qualification command changes the current record. -/
inductive RecordChange (context : AdjudicationContext) (command : QualificationCommand) :
    Option QualificationRecord → QualificationRecord → Prop where
  | notObtained (haction : command.action = .recordNotObtained) :
      RecordChange context command none (notObtainedRecord context command)
  | granted {previous : Option QualificationRecord} (haction : command.action = .grant)
      (hprevious : ∀ record ∈ previous, record.status = .notObtained) :
      RecordChange context command previous (grantedRecord context command previous)
  | alerted {previous : QualificationRecord} (haction : command.action = .alert)
      (hauthorized : previous.authorizationEvidence.isSome) :
      RecordChange context command (some previous) (alertedRecord context command previous)
  | suspended {previous : QualificationRecord} (haction : command.action = .suspend)
      (hauthorized : previous.authorizationId.isSome) (hstatus : previous.status ≠ .revoked) :
      RecordChange context command (some previous) (restrictedRecord context command previous
        .suspended .requiredPremiseUnverifiable previous.authorizationTerminatedAt)
  | revoked {previous : QualificationRecord} (haction : command.action = .revoke)
      (hauthorized : previous.authorizationId.isSome) (hstatus : previous.status ≠ .revoked) :
      RecordChange context command (some previous) (restrictedRecord context command previous
        .revoked .originalBasisInvalid (some context.now))
  | restored {previous : QualificationRecord} (haction : command.action = .restore)
      (hstatus : previous.status = .suspended)
      (hcomplete : restorationIsComplete context command previous) :
      RecordChange context command (some previous) (restoredRecord context command previous)
  | requalified {previous : QualificationRecord} {terminatedAt : Instant}
      {proof : RequalificationProof} {registered : Option RegisteredRequalificationApplication}
      {parts : RequalificationParts} (haction : command.action = .requalify)
      (hstatus : previous.status = .revoked)
      (hterminated : previous.authorizationTerminatedAt = some terminatedAt)
      (hproof : command.requalification = some proof)
      (hregistered : registeredRequalificationApplication context.history command.scope
        command.version proof.applicationId = .ok registered)
      (hparts : requalificationParts command previous proof registered = some parts)
      (hvalid : requalificationProofIsValid context command previous terminatedAt proof parts) :
      RecordChange context command (some previous)
        (requalifiedRecord context command previous proof parts.check)
  | undecided {previous : QualificationRecord} {originalCheck check : FormalCheckIdentity}
      (haction : command.action = .formalCheck)
      (hcheck : checkable command (some previous) = some (previous, originalCheck, check))
      (hpassed : formalCheckPassed command.evidence = none)
      (hfits : FormalNodeFits previous originalCheck check command.evidence originalCheck.index) :
      RecordChange context command (some previous) (disposedRecord context command
        (restrictExpiredQualification previous context.now) check .insufficient)
  | checked {previous : QualificationRecord} {originalCheck check : FormalCheckIdentity}
      {passed : Bool} (haction : command.action = .formalCheck)
      (hcheck : checkable command (some previous) = some (previous, originalCheck, check))
      (hpassed : formalCheckPassed command.evidence = some passed)
      (hfits : FormalNodeFits previous originalCheck check command.evidence
        (originalCheck.index + 1)) :
      RecordChange context command (some previous) (checkedRecord context command
        (restrictExpiredQualification previous context.now) check passed)
  | notExecuted {previous : QualificationRecord} {originalCheck check : FormalCheckIdentity}
      (haction : command.action = .recordFormalNode)
      (hcheck : checkable command (some previous) = some (previous, originalCheck, check))
      (hfits : FormalNodeFits previous originalCheck check command.evidence originalCheck.index) :
      RecordChange context command (some previous)
        (disposedRecord context command previous check .notExecuted)
  | closed {previous : QualificationRecord} {proof : AlertClosureProof} {clearCount : ℕ}
      {target : QualificationEvidence} {plan : DiagnosticPlan}
      {recordedReplay : Option RecordedAlertReplay} (haction : command.action = .closeAlert)
      (hproof : command.alertClosure = some proof)
      (hauthorized : previous.authorizationEvidence.isSome)
      (htarget : closureTarget previous proof = some (target, plan))
      (hvalid : alertClosureProofIsValid context command previous proof clearCount target plan
        recordedReplay) :
      RecordChange context command (some previous) (closedRecord context command previous
        (savedClosure context command proof target recordedReplay))

variable (reason : String)

@[simp] theorem denied_qualification : (denied reason).qualification = none := rfl

@[simp] theorem approved_qualification (record : QualificationRecord) :
    (approved reason record).qualification = some record := rfl

theorem checkable_inv {originalCheck check : FormalCheckIdentity}
    (h : checkable command previous = some (current, originalCheck, check)) :
    previous = some current ∧ command.evidence.formalCheck = some check ∧
      ∃ evidence, current.latestCheckEvidence = some evidence ∧
        evidence.formalCheck = some originalCheck := by
  unfold checkable at h
  simp only [bind_eq_some, pure_eq_some, Prod.mk.injEq] at h
  obtain ⟨found, hfound, evidence, hevidence, original, horiginal, proposed, hproposed, rfl, rfl,
    rfl⟩ := h
  exact ⟨hfound, hproposed, evidence, hevidence, horiginal⟩

/-- A formal check saves an undecided or an executed check. -/
theorem change_of_formalCheck (haction : command.action = .formalCheck)
    (h : (formalCheck context command previous).qualification = some record) :
    RecordChange context command previous record := by
  unfold formalCheck at h
  split at h
  · exact nomatch h
  · rename_i current originalCheck check hcheckable
    obtain ⟨rfl, -⟩ := checkable_inv hcheckable
    dsimp only at h
    split at h
    · rename_i hallowed
      obtain ⟨-, -, -, hfits⟩ := hallowed
      split at h
      · rename_i hpassed
        rw [nextCheckIndex, if_pos hpassed] at hfits
        cases h
        exact .undecided haction hcheckable hpassed hfits
      · rename_i passed hpassed
        have hne : formalCheckPassed command.evidence ≠ none := by simp [hpassed]
        rw [nextCheckIndex, if_neg hne] at hfits
        cases h
        exact .checked haction hcheckable hpassed hfits
    · exact nomatch h

/-- A record of a formal node saves that it was not executed. -/
theorem change_of_recordFormalNode (haction : command.action = .recordFormalNode)
    (h : (recordFormalNodeDisposition context command previous).qualification = some record) :
    RecordChange context command previous record := by
  unfold recordFormalNodeDisposition at h
  split at h
  · exact nomatch h
  · rename_i current originalCheck check hcheckable
    obtain ⟨rfl, -⟩ := checkable_inv hcheckable
    split at h
    · rename_i hallowed
      cases h
      exact .notExecuted haction hcheckable hallowed.2
    · exact nomatch h

theorem change_of_closeAlert (haction : command.action = .closeAlert)
    (h : closeAlert context command previous = .ok outcome)
    (hrecord : outcome.qualification = some record) :
    RecordChange context command previous record := by
  unfold closeAlert at h
  split at h
  · cases h
    exact nomatch hrecord
  · rename_i current proof clearCount hclosable
    unfold closable at hclosable
    simp only [bind_eq_some, pure_eq_some, Prod.mk.injEq, Option.guard_eq_some'] at hclosable
    obtain ⟨found, rfl, _, hproof, _, _, _, _, _, ⟨hauthorized, -⟩, rfl, rfl, rfl⟩ := hclosable
    obtain ⟨recordedReplay, -, h⟩ := bind_eq_ok.mp h
    split at h
    · cases h
      exact nomatch hrecord
    · rename_i target plan htarget
      split at h
      · rename_i hvalid
        cases h
        cases hrecord
        exact .closed haction hproof hauthorized htarget hvalid
      · cases h
        exact nomatch hrecord

/-- A requalification starts a record from a proof that holds. -/
theorem change_of_requalify (haction : command.action = .requalify)
    (h : requalify context command previous = .ok outcome)
    (hrecord : outcome.qualification = some record) :
    RecordChange context command previous record := by
  unfold requalify at h
  obtain ⟨registered, hregistered, h⟩ := bind_eq_ok.mp h
  split at h
  · cases h
    exact nomatch hrecord
  · rename_i current terminatedAt proof hrequalifiable
    unfold requalifiable at hrequalifiable
    simp only [bind_eq_some, pure_eq_some, Prod.mk.injEq, Option.guard_eq_some'] at hrequalifiable
    obtain ⟨found, rfl, _, hterminated, _, hproof, _, ⟨hstatus, -⟩, rfl, rfl, rfl⟩ :=
      hrequalifiable
    unfold namedApplication at hregistered
    rw [hproof] at hregistered
    split at h
    · cases h
      exact nomatch hrecord
    · rename_i parts hparts
      split at h
      · rename_i hvalid
        cases h
        cases hrecord
        exact .requalified haction hstatus hterminated hproof hregistered hparts hvalid
      · cases h
        exact nomatch hrecord

/-- A restoration lifts the restrictions of a suspended record. -/
theorem change_of_restore (haction : command.action = .restore)
    (h : (restore context command previous).qualification = some record) :
    RecordChange context command previous record := by
  unfold restore at h
  split at h
  · exact nomatch h
  · rename_i current hrestorable
    unfold restorable at hrestorable
    simp only [bind_eq_some, pure_eq_some, Option.guard_eq_some'] at hrestorable
    obtain ⟨found, rfl, _, ⟨hstatus, -⟩, rfl⟩ := hrestorable
    split at h
    · rename_i hcomplete
      cases h
      exact .restored haction hstatus hcomplete
    · exact nomatch h

theorem restrictable_inv {kind : EvidenceKind}
    (h : restrictable command kind previous = some current) :
    previous = some current ∧ current.authorizationId.isSome ∧ current.status ≠ .revoked := by
  unfold restrictable at h
  simp only [bind_eq_some, pure_eq_some, Option.guard_eq_some'] at h
  obtain ⟨found, hfound, _, ⟨hauthorized, hstatus, -⟩, rfl⟩ := h
  exact ⟨hfound, hauthorized, hstatus⟩

theorem change_of_raiseAlert (haction : command.action = .alert)
    (h : (raiseAlert context command previous).qualification = some record) :
    RecordChange context command previous record := by
  unfold raiseAlert at h
  split at h
  · exact nomatch h
  · rename_i current halertable
    unfold alertable at halertable
    simp only [bind_eq_some, pure_eq_some, Option.guard_eq_some'] at halertable
    obtain ⟨found, rfl, _, ⟨hauthorized, -⟩, rfl⟩ := halertable
    cases h
    exact .alerted haction hauthorized

/-- A grant starts a record where none was obtained. -/
theorem change_of_grant (haction : command.action = .grant)
    (h : (grant context command previous).qualification = some record) :
    RecordChange context command previous record := by
  unfold grant at h
  split at h
  · exact nomatch h
  · rename_i hallowed
    split at h
    · exact nomatch h
    · cases h
      refine .granted haction fun current hcurrent => ?_
      have hnone : ¬previous.any (·.status ≠ .notObtained) := fun hany => hallowed (.inl hany)
      rw [Option.mem_def.mp hcurrent] at hnone
      simpa using hnone

/-- Every record that an action saves is a change of the current one. -/
theorem change_of_carryOut (h : carryOut context command previous = .ok outcome)
    (hrecord : outcome.qualification = some record) :
    RecordChange context command previous record := by
  unfold carryOut at h
  split at h
  case h_4 haction => exact change_of_closeAlert haction h hrecord
  case h_6 haction => exact change_of_requalify haction h hrecord
  all_goals
    rename_i haction
    cases h
  · exact change_of_formalCheck haction hrecord
  · exact change_of_recordFormalNode haction hrecord
  · unfold recordAlertReplay at hrecord
    grind [denied]
  · unfold registerRequalificationApplication at hrecord
    grind [denied]
  · exact change_of_restore haction hrecord
  · unfold suspend at hrecord
    split at hrecord
    · exact nomatch hrecord
    · rename_i hrestrictable
      obtain ⟨rfl, hauthorized, hstatus⟩ := restrictable_inv hrestrictable
      cases hrecord
      exact .suspended haction hauthorized hstatus
  · unfold revoke at hrecord
    split at hrecord
    · exact nomatch hrecord
    · rename_i hrestrictable
      obtain ⟨rfl, hauthorized, hstatus⟩ := restrictable_inv hrestrictable
      cases hrecord
      exact .revoked haction hauthorized hstatus
  · unfold recordNotObtained at hrecord
    split at hrecord
    · exact nomatch hrecord
    · rename_i hallowed
      have hnone : previous = none := not_not.mp fun hne => hallowed (.inl hne)
      cases hrecord
      subst hnone
      exact .notObtained haction
  · exact change_of_raiseAlert haction hrecord
  · exact change_of_grant haction hrecord

/-- Whether an outcome saves nothing but a record. -/
def GovernanceOutcome.SavesOnlyRecord (outcome : GovernanceOutcome) : Prop :=
  ∃ disposition reasons qualification, outcome = { disposition, reasons, qualification }

theorem savesOnlyRecord_denied : (denied reason).SavesOnlyRecord :=
  ⟨_, _, _, rfl⟩

theorem savesOnlyRecord_approved (record : QualificationRecord) :
    (approved reason record).SavesOnlyRecord := ⟨_, _, _, rfl⟩

/-- A command saves the record alone, an alert replay, or an application. -/
theorem carryOut_cases (h : carryOut context command previous = .ok outcome) :
    outcome.SavesOnlyRecord ∨
      outcome = recordAlertReplay context command previous ∨
      outcome = registerRequalificationApplication context command previous := by
  unfold carryOut at h
  split at h
  case h_3 =>
    cases h
    exact .inr (.inl rfl)
  case h_5 =>
    cases h
    exact .inr (.inr rfl)
  case h_4 =>
    unfold closeAlert at h
    split at h
    · cases h
      exact .inl (savesOnlyRecord_denied _)
    · obtain ⟨_, -, h⟩ := bind_eq_ok.mp h
      split at h
      · cases h
        exact .inl (savesOnlyRecord_denied _)
      · split at h
        · cases h
          exact .inl (savesOnlyRecord_approved _ _)
        · cases h
          exact .inl (savesOnlyRecord_denied _)
  case h_6 =>
    unfold requalify at h
    obtain ⟨_, -, h⟩ := bind_eq_ok.mp h
    split at h
    · cases h
      exact .inl (savesOnlyRecord_denied _)
    · split at h
      · cases h
        exact .inl (savesOnlyRecord_denied _)
      · split at h
        · cases h
          exact .inl (savesOnlyRecord_approved _ _)
        · cases h
          exact .inl (savesOnlyRecord_denied _)
  all_goals
    cases h
    left
    first
      | unfold formalCheck
      | unfold recordFormalNodeDisposition
      | unfold restore
      | unfold suspend
      | unfold revoke
      | unfold recordNotObtained
      | unfold raiseAlert
      | unfold grant
    grind [savesOnlyRecord_denied, savesOnlyRecord_approved]

end StockProfiler.Qualification
