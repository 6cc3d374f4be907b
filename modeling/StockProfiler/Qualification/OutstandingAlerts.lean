import StockProfiler.Qualification.Requalifications

/-!
# Outstanding alerts

An alert stays outstanding until a closure ends it, and a standing record is at risk
as long as one is. Alerts are matched by the identity of their evidence, so both rest
on identities that are not used again.
-/

namespace StockProfiler.Qualification

variable {other : QualificationRecord} {context : AdjudicationContext}
  {record : QualificationRecord}

/-- The alert that a command raises. -/
def GovernanceCommand.raisedAlert : GovernanceCommand → Option QualificationEvidence
  | .qualification command => if command.action = .alert then some command.evidence else none
  | _ => none

/-- The alert that a step raised. -/
def raisedAlert (step : GovernanceStep) : Option QualificationEvidence :=
  step.input.command.raisedAlert

/-- The proof of the closure that a command asks for, if it would end an alert. -/
def GovernanceCommand.endingProof : GovernanceCommand → Option AlertClosureProof
  | .qualification command =>
    if command.action = .closeAlert then
      command.alertClosure.filter (·.resolution ∈ [.disappeared, .provenErroneous])
    else none
  | _ => none

/-- Whether a step ended an alert by a closure whose proof refers to it. -/
def EndsAlert (run : List GovernanceStep) (closing : GovernanceStep)
    (alert : QualificationEvidence) : Prop :=
  ∃ proof, closing.input.command.endingProof = some proof ∧
    proof.alertEvidenceId = alert.evidenceId ∧
      ∃ record previous, savedRecord closing = some record ∧ previous ∈ savedRecords run ∧
        record.previousDecisionId = some previous.decisionId ∧
          ∃ plan, closureTarget previous proof = some (alert, plan)

/-- Whether a command raises no alert under the identity of one that was ended, and ends no two
alerts at once. -/
structure KeepsAlertIds (command : GovernanceCommand) (previous : QualificationRecord) :
    Prop where
  raised : ∀ alert ∈ command.raisedAlert, alert.evidenceId ∉ previous.closedAlertIds
  ended : ∀ proof ∈ command.endingProof, ∀ a ∈ previous.alerts, ∀ b ∈ previous.alerts,
    a.evidenceId = proof.alertEvidenceId → b.evidenceId = proof.alertEvidenceId → a = b

instance (command : GovernanceCommand) (previous : QualificationRecord) :
    Decidable (KeepsAlertIds command previous) :=
  decidable_of_iff _ ⟨fun h : _ ∧ _ => ⟨h.1, h.2⟩, fun h => ⟨h.raised, h.ended⟩⟩

/-- How a command changes the alerts of a record and their closures. -/
inductive AlertChange (command : GovernanceCommand) :
    Option QualificationRecord → QualificationRecord → Prop where
  | started {previous : Option QualificationRecord} {record : QualificationRecord}
      (hprevious : ∀ current ∈ previous, current.status = .notObtained)
      (hraised : command.raisedAlert = none) (halerts : record.alerts = [])
      (hclosures : record.alertClosures = []) : AlertChange command previous record
  | raised {previous record : QualificationRecord} {alert : QualificationEvidence}
      (hraised : command.raisedAlert = some alert)
      (halerts : record.alerts = previous.alerts ++ [alert])
      (hclosures : record.alertClosures = previous.alertClosures)
      (hstatus : record.status ≠ .notObtained) : AlertChange command (some previous) record
  | closed {previous record : QualificationRecord} {closure : AlertClosure}
      {proof : AlertClosureProof} {target : QualificationEvidence} {plan : DiagnosticPlan}
      (hraised : command.raisedAlert = none) (halerts : record.alerts = previous.alerts)
      (hclosures : record.alertClosures = previous.alertClosures ++ [closure])
      (hid : closure.alertEvidenceId = target.evidenceId)
      (htarget : closureTarget previous proof = some (target, plan))
      (hproof : closure.terminatesAlert → command.endingProof = some proof)
      (hstatus : record.status = .notObtained → previous.status = .notObtained) :
      AlertChange command (some previous) record
  | kept {previous record : QualificationRecord} (hraised : command.raisedAlert = none)
      (halerts : record.alerts = previous.alerts)
      (hclosures : record.alertClosures = previous.alertClosures)
      (hstatus : record.status = .notObtained → previous.status = .notObtained) :
      AlertChange command (some previous) record

theorem notObtained_of_restrictExpired {now : Instant}
    (h : (restrictExpiredQualification record now).status = .notObtained) :
    record.status = .notObtained := by
  rcases restrictExpiredQualification_status record now with hsame | ⟨-, hsuspended, -⟩
  · rw [hsame] at h
    exact h
  · rw [hsuspended] at h
    exact nomatch h

theorem notObtained_of_closedRecord {command : QualificationCommand} {closure : AlertClosure}
    (h : (closedRecord context command record closure).status = .notObtained) :
    record.status = .notObtained := by
  unfold closedRecord at h
  dsimp only at h
  split at h
  · exact h
  · split at h
    · exact nomatch h
    · exact nomatch h

/-- Every step that saves a record changes its alerts in one of these ways. -/
theorem Saved.alertChange {command : GovernanceCommand} {previous : Option QualificationRecord}
    (h : Saved context command previous record) : AlertChange command previous record := by
  cases h with
  | @expired _ previous _ h =>
    obtain ⟨-, -, -, rfl⟩ := expiredByUse_inv h
    obtain ⟨_, _, _, hframe⟩ := restrictExpiredQualification_frame previous context.now
    exact .kept rfl (by simp only [hframe]) (by simp only [hframe]) notObtained_of_restrictExpired
  | @changed command _ _ h =>
    have hnone : ∀ action, command.action = action → action ≠ .alert →
        (GovernanceCommand.qualification command).raisedAlert = none :=
      fun action haction hne => if_neg fun halert => hne (haction.symm.trans halert)
    cases h with
    | notObtained haction =>
      exact .started (fun _ h => absurd h (Option.not_mem_none _)) (hnone _ haction (by simp))
        rfl rfl
    | granted haction hprevious => exact .started hprevious (hnone _ haction (by simp)) rfl rfl
    | @alerted previous haction _ =>
      obtain ⟨_, _, _, hframe⟩ := restrictExpiredQualification_frame previous context.now
      refine .raised (if_pos haction) (by simp only [alertedRecord, hframe])
        (by simp only [alertedRecord, hframe]) ?_
      unfold alertedRecord
      dsimp only
      split
      · rename_i hrestricted
        intro hstatus
        simp [hstatus] at hrestricted
      · simp
    | suspended haction _ _ => exact .kept (hnone _ haction (by simp)) rfl rfl fun h => by cases h
    | revoked haction _ _ => exact .kept (hnone _ haction (by simp)) rfl rfl fun h => by cases h
    | restored haction _ _ =>
      refine .kept (hnone _ haction (by simp)) rfl rfl fun hstatus => ?_
      unfold restoredRecord at hstatus
      dsimp only at hstatus
      split at hstatus
      · cases hstatus
      · cases hstatus
    | requalified haction _ _ _ _ _ _ =>
      refine .kept (hnone _ haction (by simp)) rfl rfl fun hstatus => ?_
      unfold requalifiedRecord at hstatus
      dsimp only at hstatus
      split at hstatus
      · cases hstatus
      · cases hstatus
    | @undecided previous _ _ haction _ _ _ =>
      obtain ⟨_, _, _, hframe⟩ := restrictExpiredQualification_frame previous context.now
      exact .kept (hnone _ haction (by simp)) (by simp only [disposedRecord, hframe])
        (by simp only [disposedRecord, hframe]) notObtained_of_restrictExpired
    | @checked previous _ _ _ haction _ _ _ =>
      obtain ⟨_, _, _, hframe⟩ := restrictExpiredQualification_frame previous context.now
      refine .kept (hnone _ haction (by simp))
        (by simp only [checkedRecord, disposedRecord, hframe])
        (by simp only [checkedRecord, disposedRecord, hframe]) fun hstatus => ?_
      unfold checkedRecord at hstatus
      dsimp only at hstatus
      split at hstatus
      · cases hstatus
      · exact notObtained_of_restrictExpired hstatus
    | notExecuted haction _ _ => exact .kept (hnone _ haction (by simp)) rfl rfl id
    | @closed previous proof _ _ _ _ haction hproof _ htarget _ =>
      refine .closed (hnone _ haction (by simp)) rfl rfl rfl htarget (fun hends => ?_)
        notObtained_of_closedRecord
      have hresolution : proof.resolution ∈ [.disappeared, .provenErroneous] := by
        simpa [AlertClosure.terminatesAlert, savedClosure] using hends
      simp only [GovernanceCommand.endingProof, if_pos haction, hproof]
      exact Option.filter_eq_some_iff.mpr ⟨rfl, decide_eq_true hresolution⟩

/-- A closure adds the alert that it ends to the closed ones. -/
theorem closedAlertIds_closedRecord (context : AdjudicationContext) (command : QualificationCommand)
    (previous : QualificationRecord) (closure : AlertClosure) :
    (closedRecord context command previous closure).closedAlertIds = previous.closedAlertIds ++
      if closure.terminatesAlert then [closure.alertEvidenceId] else [] := by
  unfold QualificationRecord.closedAlertIds closedRecord
  rw [List.filter_append, List.map_append]
  cases h : closure.terminatesAlert <;> simp [h]

/-- Whether a standing record is at risk exactly while an alert is outstanding. -/
def AtRiskFit (record : QualificationRecord) : Prop :=
  record.status = .valid ∨ record.status = .atRisk →
    (record.status = .atRisk ↔ record.outstandingAlerts ≠ [])

theorem outstandingAlerts_congr (halerts : other.alerts = record.alerts)
    (hclosures : other.alertClosures = record.alertClosures) :
    other.outstandingAlerts = record.outstandingAlerts := by
  unfold QualificationRecord.outstandingAlerts QualificationRecord.closedAlertIds
  rw [halerts, hclosures]

/-- A record with the standing and the alerts of another is at risk as that one is. -/
theorem AtRiskFit.congr (h : AtRiskFit record)
    (hstatus : other.status = record.status ∨ other.status = .suspended ∨ other.status = .revoked)
    (halerts : other.alerts = record.alerts)
    (hclosures : other.alertClosures = record.alertClosures) : AtRiskFit other := by
  intro hstanding
  rcases hstatus with hsame | hrestricted | hrestricted
  · rw [hsame] at hstanding ⊢
    rw [outstandingAlerts_congr halerts hclosures]
    exact h hstanding
  · simp [hrestricted] at hstanding
  · simp [hrestricted] at hstanding

/-- A record whose standing is computed from its outstanding alerts is at risk as they say. -/
theorem atRiskFit_of_status (h : record.status =
    if record.outstandingAlerts ≠ [] then .atRisk else .valid) : AtRiskFit record := by
  intro _
  by_cases houtstanding : record.outstandingAlerts ≠ []
  · rw [if_pos houtstanding] at h
    exact iff_of_true h houtstanding
  · rw [if_neg houtstanding] at h
    exact iff_of_false (by simp [h]) houtstanding

/-- The expiry of a record leaves its standing, or suspends it. -/
theorem AtRiskFit.restrictExpired (h : AtRiskFit record) (now : Instant) :
    AtRiskFit (restrictExpiredQualification record now) := by
  obtain ⟨status, cause, restrictions, hframe⟩ := restrictExpiredQualification_frame record now
  refine h.congr ?_ (by rw [hframe]) (by rw [hframe])
  rcases restrictExpiredQualification_status record now with hsame | ⟨-, hsuspended, -⟩
  · exact .inl (congrArg _ hsame)
  · exact .inr (.inl hsuspended)

/-- A closure leaves its record at risk exactly while another alert is outstanding. -/
theorem AtRiskFit.closed (h : AtRiskFit record) {command : QualificationCommand}
    (closure : AlertClosure) : AtRiskFit (closedRecord context command record closure) := by
  by_cases hkept : record.status ∈ [.suspended, .revoked] ∨ closure.resolution = .archived
  · have hstatus : (closedRecord context command record closure).status = record.status :=
      if_pos hkept
    rcases hkept with hrestricted | harchived
    · intro hstanding
      rw [hstatus] at hstanding
      rcases hstanding with hsame | hsame <;> simp [hsame] at hrestricted
    · have hclosed : (closedRecord context command record closure).closedAlertIds =
          record.closedAlertIds := by
        rw [closedAlertIds_closedRecord]
        simp [AlertClosure.terminatesAlert, harchived]
      have houtstanding : (closedRecord context command record closure).outstandingAlerts =
          record.outstandingAlerts := by
        unfold QualificationRecord.outstandingAlerts
        rw [hclosed]
        rfl
      intro hstanding
      rw [hstatus] at hstanding ⊢
      rw [houtstanding]
      exact h hstanding
  · exact atRiskFit_of_status (if_neg hkept)

/-- A step that keeps the identities of alerts keeps the standing of a record fitting. -/
theorem Saved.atRiskFit {command : GovernanceCommand} {previous : Option QualificationRecord}
    (h : Saved context command previous record)
    (hkeeps : ∀ current ∈ previous, KeepsAlertIds command current)
    (hprevious : ∀ current ∈ previous, AtRiskFit current) : AtRiskFit record := by
  cases h with
  | @expired _ previous _ h =>
    obtain ⟨-, -, -, rfl⟩ := expiredByUse_inv h
    exact ((hprevious previous rfl).restrictExpired _).congr (.inl rfl) rfl rfl
  | @changed command _ _ h =>
    cases h with
    | notObtained _ => exact fun hstanding => by simp [notObtainedRecord] at hstanding
    | granted _ _ => exact atRiskFit_of_status rfl
    | @alerted previous haction _ =>
      obtain ⟨_, _, _, hframe⟩ := restrictExpiredQualification_frame previous context.now
      intro hstanding
      have hnew := (hkeeps previous rfl).raised command.evidence (if_pos haction)
      have hmem :
          command.evidence ∈ (alertedRecord context command previous).outstandingAlerts := by
        refine List.mem_filter.mpr ⟨?_, decide_eq_true ?_⟩
        · exact List.mem_append_right _ (List.mem_singleton_self _)
        · simpa [alertedRecord, hframe, QualificationRecord.closedAlertIds] using hnew
      refine ⟨fun _ => List.ne_nil_of_mem hmem, fun _ => ?_⟩
      unfold alertedRecord at hstanding ⊢
      dsimp only at hstanding ⊢
      split
      · rename_i hrestricted
        rw [if_pos hrestricted] at hstanding
        rcases hstanding with hsame | hsame <;> simp [hsame] at hrestricted
      · rfl
    | @suspended previous _ _ _ => exact (hprevious previous rfl).congr (.inr (.inl rfl)) rfl rfl
    | @revoked previous _ _ _ => exact (hprevious previous rfl).congr (.inr (.inr rfl)) rfl rfl
    | restored _ _ _ => exact atRiskFit_of_status rfl
    | requalified _ _ _ _ _ _ _ => exact atRiskFit_of_status rfl
    | @undecided previous _ _ _ _ _ _ =>
      exact ((hprevious previous rfl).restrictExpired context.now).congr (.inl rfl) rfl rfl
    | @checked previous _ _ passed _ _ _ _ =>
      refine ((hprevious previous rfl).restrictExpired context.now).congr ?_ rfl rfl
      unfold checkedRecord
      dsimp only
      split
      · exact .inr (.inl rfl)
      · exact .inl rfl
    | @notExecuted previous _ _ _ _ _ => exact (hprevious previous rfl).congr (.inl rfl) rfl rfl
    | @closed previous _ _ _ _ _ _ _ _ _ _ =>
      exact (hprevious previous rfl).closed _
/-- Whether a record has the alerts that its lineage raised, the ended ones by closures that
refer to them. -/
structure AlertsFit (run steps : List GovernanceStep) (record : QualificationRecord) : Prop where
  alerts : record.alerts = steps.filterMap raisedAlert
  unobtained : record.status = .notObtained → record.alerts = []
  ended : ∀ earlier step later, steps = earlier ++ step :: later → ∀ alert ∈ raisedAlert step,
    alert.evidenceId ∈ record.closedAlertIds → ∃ closing ∈ later, EndsAlert run closing alert

theorem mem_of_closureTarget {proof : AlertClosureProof} {target : QualificationEvidence}
    {plan : DiagnosticPlan} (h : closureTarget record proof = some (target, plan)) :
    target ∈ record.alerts ∧ target.evidenceId = proof.alertEvidenceId := by
  unfold closureTarget at h
  simp only [bind_eq_some, pure_eq_some, Prod.mk.injEq] at h
  obtain ⟨found, hfound, _, _, rfl, rfl⟩ := h
  exact ⟨List.mem_of_find?_eq_some hfound, by simpa using List.find?_some hfound⟩

theorem closedAlertIds_congr (h : other.alertClosures = record.alertClosures) :
    other.closedAlertIds = record.closedAlertIds := by
  unfold QualificationRecord.closedAlertIds
  rw [h]

section Extension

variable {run steps : List GovernanceStep} {previous : QualificationRecord} {step : GovernanceStep}

theorem AlertsFit.ended_snoc (h : AlertsFit run steps previous)
    (hnew : ∀ alert ∈ raisedAlert step, alert.evidenceId ∉ record.closedAlertIds)
    (hold : ∀ alert ∈ previous.alerts, alert.evidenceId ∈ record.closedAlertIds →
      alert.evidenceId ∈ previous.closedAlertIds ∨ EndsAlert run step alert) :
    ∀ earlier other later, steps ++ [step] = earlier ++ other :: later →
      ∀ alert ∈ raisedAlert other, alert.evidenceId ∈ record.closedAlertIds →
        ∃ closing ∈ later, EndsAlert run closing alert := by
  intro earlier other later hsplit alert halert hclosed
  rcases split_snoc hsplit with ⟨-, -, rfl⟩ | ⟨front, rfl, hsteps⟩
  · exact absurd hclosed (hnew alert halert)
  · have hmem : alert ∈ previous.alerts := by
      rw [h.alerts]
      refine List.mem_filterMap.mpr ⟨other, ?_, halert⟩
      rw [hsteps]
      exact List.mem_append_right _ List.mem_cons_self
    rcases hold alert hmem hclosed with hbefore | hends
    · obtain ⟨closing, hclosing, hends⟩ := h.ended earlier other front hsteps alert halert hbefore
      exact ⟨closing, List.mem_append_left _ hclosing, hends⟩
    · exact ⟨step, List.mem_append_right _ (List.mem_singleton_self _), hends⟩

/-- A change of a record that keeps the identities of alerts continues its lineage. -/
theorem AlertChange.alertsFit (h : AlertChange step.input.command (some previous) record)
    (hsaved : savedRecord step = some record) (hmem : previous ∈ savedRecords run)
    (hlink : record.previousDecisionId = some previous.decisionId)
    (hkeeps : KeepsAlertIds step.input.command previous)
    (hprevious : AlertsFit run steps previous) : AlertsFit run (steps ++ [step]) record := by
  have halerts : (steps ++ [step]).filterMap raisedAlert =
      previous.alerts ++ step.input.command.raisedAlert.toList := by
    rw [List.filterMap_append, hprevious.alerts]
    unfold raisedAlert
    cases hraised : step.input.command.raisedAlert <;> simp [hraised]
  cases h with
  | started hobtained hraised hnone hclosures =>
    have hempty := hprevious.unobtained (hobtained previous rfl)
    refine ⟨by rw [hnone, halerts, hempty, hraised]; rfl, fun _ => hnone, ?_⟩
    refine hprevious.ended_snoc (fun _ _ hclosed => ?_) fun _ _ hclosed => ?_
    · simp [QualificationRecord.closedAlertIds, hclosures] at hclosed
    · simp [QualificationRecord.closedAlertIds, hclosures] at hclosed
  | @raised _ _ alert hraised hadded hclosures hstatus =>
    refine ⟨by rw [hadded, halerts, hraised]; rfl, fun hnone => absurd hnone hstatus, ?_⟩
    have hclosed := closedAlertIds_congr hclosures
    refine hprevious.ended_snoc (fun other hother => ?_) fun _ _ hmem => .inl (hclosed ▸ hmem)
    rw [hclosed]
    exact hkeeps.raised other hother
  | kept hraised hsame hclosures hstatus =>
    refine ⟨by rw [hsame, halerts, hraised, Option.toList_none, List.append_nil],
      fun hnone => hsame ▸ hprevious.unobtained (hstatus hnone), ?_⟩
    have hclosed := closedAlertIds_congr hclosures
    refine hprevious.ended_snoc (fun other hother => ?_) fun _ _ hmem => .inl (hclosed ▸ hmem)
    unfold raisedAlert at hother
    rw [hraised] at hother
    exact absurd hother (Option.not_mem_none _)
  | @closed _ _ closure proof target plan hraised hsame hclosures hid htarget hproof hstatus =>
    refine ⟨by rw [hsame, halerts, hraised, Option.toList_none, List.append_nil],
      fun hnone => hsame ▸ hprevious.unobtained (hstatus hnone), ?_⟩
    refine hprevious.ended_snoc (fun other hother => ?_) fun alert halert hclosed => ?_
    · unfold raisedAlert at hother
      rw [hraised] at hother
      exact absurd hother (Option.not_mem_none _)
    · have hids : record.closedAlertIds = previous.closedAlertIds ++
          if closure.terminatesAlert then [closure.alertEvidenceId] else [] := by
        unfold QualificationRecord.closedAlertIds
        rw [hclosures, List.filter_append, List.map_append]
        cases hends : closure.terminatesAlert <;> simp [hends]
      rw [hids] at hclosed
      rcases List.mem_append.mp hclosed with hbefore | hnow
      · exact .inl hbefore
      · cases hends : closure.terminatesAlert with
        | false => simp [hends] at hnow
        | true =>
          rw [hends, if_pos rfl, List.mem_singleton] at hnow
          obtain ⟨htargetMem, htargetId⟩ := mem_of_closureTarget htarget
          have hending := hproof hends
          have hsameAlert : target = alert := hkeeps.ended proof hending target htargetMem alert
            halert htargetId (hnow.trans (hid.trans htargetId))
          subst hsameAlert
          exact .inr ⟨proof, hending, htargetId.symm, record, previous, hsaved, hmem, hlink, plan,
            htarget⟩

end Extension

/-- Where no alert is raised under the identity of an ended one and no closure ends two alerts,
every alert of a lineage is outstanding unless a later closure that refers to it ended it, and a
standing record is at risk exactly while an alert is outstanding. -/
theorem alerts_outstanding {run : List GovernanceStep} (hrun : GovernanceRun run)
    (hkeeps : ∀ step ∈ run, ∀ record ∈ savedRecord step, ∀ previous ∈ savedRecords run,
      record.previousDecisionId = some previous.decisionId →
        KeepsAlertIds step.input.command previous) :
    ∀ record ∈ savedRecords run, (∃ steps, Lineage run steps record) ∧
      (∀ steps, Lineage run steps record → ∀ earlier step later,
        steps = earlier ++ step :: later → ∀ alert ∈ raisedAlert step,
          alert ∈ record.outstandingAlerts ∨ ∃ closing ∈ later, EndsAlert run closing alert) ∧
      (record.status = .valid ∨ record.status = .atRisk →
        (record.status = .atRisk ↔ record.outstandingAlerts ≠ [])) := by
  have hrisk : ∀ record ∈ savedRecords run, AtRiskFit record := by
    refine forall_saved hrun fun step hstep previous record hsaved hchange hprevious => ?_
    refine hchange.atRiskFit (fun current hcurrent => ?_) fun current hcurrent =>
      (hprevious current hcurrent).2
    refine hkeeps step hstep record hsaved current (hprevious current hcurrent).1 ?_
    rw [hchange.ids.2, Option.mem_def.mp hcurrent]
    rfl
  intro record hrecord
  refine ⟨Lineage.exists_of_mem hrun hrecord, fun steps hsteps => ?_, hrisk record hrecord⟩
  have hfit : AlertsFit run steps record := by
    refine hsteps.induct (P := AlertsFit run) hrun ?_ ?_
    · intro step _ record _ hchange
      cases hchange.alertChange with
      | started _ hraised hnone hclosures =>
        refine ⟨?_, fun _ => hnone, fun earlier other later hsplit alert _ hclosed => ?_⟩
        · have hno : raisedAlert step = none := hraised
          simp [hnone, hno]
        · simp [QualificationRecord.closedAlertIds, hclosures] at hclosed
    · intro steps previous step hstep record hlineage hprevious hsaved hchange
      have hlink := hchange.ids.2
      exact hchange.alertChange.alertsFit hsaved hlineage.mem hlink
        (hkeeps step hstep record hsaved previous hlineage.mem hlink) hprevious
  intro earlier step later hsplit alert halert
  by_cases hclosed : alert.evidenceId ∈ record.closedAlertIds
  · exact .inr (hfit.ended earlier step later hsplit alert halert hclosed)
  · refine .inl (List.mem_filter.mpr ⟨?_, decide_eq_true hclosed⟩)
    rw [hfit.alerts]
    refine List.mem_filterMap.mpr ⟨step, ?_, halert⟩
    rw [hsplit]
    exact List.mem_append_right _ List.mem_cons_self

namespace SampleQualification

/-- An alert on the sample qualification, observed again at two nodes. -/
def alerting (eventId previousId : String) (t : Instant) : GovernanceInput :=
  input eventId (command .alert (some previousId) { evidence "alert" .diagnosticAlert t with
    diagnosticPlan := some ⟨"rule-1", [t + day 1, t + day 2]⟩ })

def clearObservation (evidenceId : String) (t : Instant) : DiagnosticObservation where
  scheduledAt := t
  status := .clear
  ruleVersion := "rule-1"
  evidence := { evidence evidenceId .diagnosticClear t with resolvesEvidenceId := some "alert" }

def closing : GovernanceInput :=
  input "event-3" { command .closeAlert (some "event-2") { evidence "closure" .alertClosure (day 4)
      with resolvesEvidenceId := some "alert" } with
    alertClosure := some
      { alertEvidenceId := "alert"
        resolution := .disappeared
        ruleVersion := "rule-1"
        observations := [clearObservation "clear-1" (day 2), clearObservation "clear-2" (day 3)] } }

def closedAlert : List GovernanceInput := [granting, alerting "event-2" "event-1" (day 1), closing]

/-- The sample qualification is at risk until its alert is closed. -/
theorem sample_outstanding : (savedRecords (runOf closedAlert)).map (·.status) =
      [.valid, .atRisk, .valid] ∧
    ∀ record ∈ savedRecords (runOf closedAlert), record.status = .valid ∨ record.status = .atRisk →
      (record.status = .atRisk ↔ record.outstandingAlerts ≠ []) :=
  ⟨by decide +kernel, fun record hrecord => (alerts_outstanding (governanceRun_runOf closedAlert)
    (by decide +kernel) record hrecord).2.2⟩

def repeatedAlert : List GovernanceInput :=
  closedAlert ++ [alerting "event-4" "event-3" (day 5)]

/-- An alert raised under the identity of a closed one is not outstanding, though the record is
at risk. -/
theorem sample_lostAlert : ∃ run, GovernanceRun run ∧ ∃ steps record, Lineage run steps record ∧
    (∃ earlier last, steps = earlier ++ [last] ∧ ∃ alert, raisedAlert last = some alert ∧
      alert ∉ record.outstandingAlerts) ∧
    record.status = .atRisk ∧ record.outstandingAlerts = [] := by
  have hsteps : ∃ a b c d, runOf repeatedAlert = [a, b, c, d] ∧ ∃ first second third record,
      (savedRecord a = some first ∧ first.previousDecisionId = none) ∧
      (savedRecord b = some second ∧ second.previousDecisionId = some first.decisionId) ∧
      (savedRecord c = some third ∧ third.previousDecisionId = some second.decisionId) ∧
      (savedRecord d = some record ∧ record.previousDecisionId = some third.decisionId) ∧
      record.outstandingAlerts = [] ∧ record.status = .atRisk ∧ (raisedAlert d).isSome :=
    ⟨_, _, _, _, rfl, _, _, _, _, ⟨rfl, rfl⟩, ⟨rfl, rfl⟩, ⟨rfl, rfl⟩, ⟨rfl, rfl⟩, rfl, rfl, rfl⟩
  obtain ⟨a, b, c, d, hrun, first, second, third, record, ⟨hfirst, hroot⟩, ⟨hsecond, hlink⟩,
    ⟨hthird, hlink'⟩, ⟨hsaved, hlink''⟩, hnone, hstatus, hraised⟩ := hsteps
  have hmem : ∀ step ∈ [a, b, c, d], step ∈ runOf repeatedAlert := fun step h => hrun ▸ h
  obtain ⟨alert, halert⟩ := Option.isSome_iff_exists.mp hraised
  refine ⟨_, governanceRun_runOf repeatedAlert, _, record, ?_, ⟨[a] ++ [b] ++ [c], d, rfl, alert,
    halert, ?_⟩, hstatus, hnone⟩
  · refine .next (.next (.next (.first (hmem a ?_) hfirst hroot) (hmem b ?_) hsecond hlink)
      (hmem c ?_) hthird hlink') (hmem d ?_) hsaved hlink''
    · simp
    · simp
    · simp
    · simp
  · rw [hnone]
    exact List.not_mem_nil

end SampleQualification

end StockProfiler.Qualification
