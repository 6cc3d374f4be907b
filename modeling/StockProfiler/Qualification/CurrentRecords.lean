import StockProfiler.Qualification.Handoffs

/-!
# The current record of a version

The records of a scope and of the versions that follow the same rules supersede one another.
A lookup of exactly one of these versions sees a part of them only, and fails when that part
is not contiguous.
-/

namespace StockProfiler.Qualification

variable {records : List QualificationRecord}

/-- The records of a scope whose versions follow the same rules. -/
def substantiveRecords (history : List GovernanceOutcome) (scope : QualificationScope)
    (version : CapabilityVersion) : List QualificationRecord :=
  (qualificationRecords history).filter fun record =>
    record.scope.SameScopeAs scope ∧ record.version.SameSubstantiveVersionAs version

/-- Records supersede one another, and the version changes only after a record without
authority. -/
structure HandedOn (records : List QualificationRecord) : Prop where
  succession : Succession (·.decisionId) (·.previousDecisionId) records
  released : ∀ earlier a b later, records = earlier ++ a :: b :: later → a.version ≠ b.version →
    a.status ∈ [.revoked, .notObtained]

section Lookups

variable {history : List GovernanceOutcome} {scope other : QualificationScope}
  {version otherVersion : CapabilityVersion} {record : QualificationRecord}

theorem substantiveRecords_congr (history : List GovernanceOutcome)
    (hscope : scope.SameScopeAs other) (hversion : version.SameSubstantiveVersionAs otherVersion) :
    substantiveRecords history scope version = substantiveRecords history other otherVersion := by
  refine List.filter_congr fun record _ => decide_eq_decide.mpr ⟨fun h => ?_, fun h => ?_⟩
  · exact ⟨h.1.trans hscope, h.2.trans hversion⟩
  · exact ⟨h.1.trans hscope.symm, h.2.trans hversion.symm⟩

theorem filter_substantiveRecords (history : List GovernanceOutcome) (scope : QualificationScope)
    (version : CapabilityVersion) :
    (qualificationRecords history).filter (fun record =>
        record.scope.SameScopeAs scope ∧ record.version = version) =
      (substantiveRecords history scope version).filter (·.version = version) := by
  unfold substantiveRecords
  rw [List.filter_filter]
  refine List.filter_congr fun record _ => ?_
  rw [Bool.eq_iff_iff, Bool.and_eq_true, decide_eq_true_eq, decide_eq_true_eq, decide_eq_true_eq]
  constructor
  · rintro ⟨hscope, hversion⟩
    exact ⟨hversion, hscope, hversion ▸ .refl version⟩
  · rintro ⟨hversion, hscope, -⟩
    exact ⟨hscope, hversion⟩

section

variable (h : HandedOn (substantiveRecords history scope version))
include h

/-- A lookup by the rules finds the last record that follows them. -/
theorem HandedOn.currentSubstantive :
    currentSubstantiveQualification history scope version =
      .ok (substantiveRecords history scope version).getLast? := by
  have hheads := h.succession.heads_eq
  unfold substantiveRecords at hheads
  unfold currentSubstantiveQualification currentQualificationMatching substantiveRecords
  simp only [decide_eq_true_eq]
  rw [hheads]
  cases ((qualificationRecords history).filter fun record => record.scope.SameScopeAs scope ∧
    record.version.SameSubstantiveVersionAs version).getLast? <;> rfl

/-- The heads that a lookup of exactly one version sees. -/
theorem HandedOn.heads_exact :
    heads (·.decisionId) (·.previousDecisionId) ((qualificationRecords history).filter fun record =>
        record.scope.SameScopeAs scope ∧ record.version = version) =
      blockEnds (·.version = version) (substantiveRecords history scope version) := by
  rw [← h.succession.heads_filter, filter_substantiveRecords]

/-- The current record is unambiguous when the version's records are contiguous. -/
theorem HandedOn.current_iff :
    (∃ current, currentQualification history scope version = .ok current) ↔
      Contiguous (·.version = version) (substantiveRecords history scope version) := by
  rw [← length_blockEnds_le_one_iff, ← h.heads_exact]
  unfold currentQualification currentQualificationMatching
  simp only [decide_eq_true_eq]
  split
  · rename_i hnil
    rw [hnil]
    exact ⟨fun _ => Nat.zero_le 1, fun _ => ⟨_, rfl⟩⟩
  · rename_i head hhead
    rw [hhead]
    exact ⟨fun _ => Nat.le_refl 1, fun _ => ⟨_, rfl⟩⟩
  · rename_i hnil hsingle
    constructor
    · rintro ⟨_, hcurrent⟩
      exact nomatch hcurrent
    · intro hlength
      exfalso
      revert hnil hsingle hlength
      generalize heads QualificationRecord.decisionId _ (List.filter _ _) = found
      intro hnil hsingle hlength
      match found with
      | [] => exact hnil rfl
      | [a] => exact hsingle a rfl
      | a :: b :: rest =>
        simp only [List.length_cons] at hlength
        omega

/-- What a lookup of exactly one version finds is the last record that follows its rules, or has no
authority. -/
theorem HandedOn.current_last
    (hcurrent : currentQualification history scope version = .ok (some record)) :
    (substantiveRecords history scope version).getLast? = some record ∨
      record.status ∈ [.revoked, .notObtained] := by
  have hmem : record ∈ blockEnds (·.version = version)
      (substantiveRecords history scope version) := by
    rw [← h.heads_exact]
    unfold currentQualification currentQualificationMatching at hcurrent
    simp only [decide_eq_true_eq] at hcurrent
    split at hcurrent
    · exact nomatch hcurrent
    · rename_i head hhead
      obtain rfl := Option.some.inj (Except.ok.inj hcurrent)
      rw [hhead]
      exact List.mem_singleton_self head
    · exact nomatch hcurrent
  obtain ⟨earlier, rest, hitems, hversion, hnext⟩ := mem_blockEnds hmem
  cases rest with
  | nil =>
    rw [hitems, List.getLast?_concat]
    exact .inl rfl
  | cons b later =>
    refine .inr (h.released earlier record b later hitems fun heq => hnext b rfl ?_)
    rw [← heq]
    exact hversion

end

/-- A new record that supersedes the last one continues what is handed on. -/
theorem HandedOn.snoc (h : HandedOn records) (hnew : record.decisionId ∉ records.map (·.decisionId))
    (hlink : record.previousDecisionId = records.getLast?.map (·.decisionId))
    (hreleased : ∀ last ∈ records.getLast?, last.version ≠ record.version →
      last.status ∈ [.revoked, .notObtained]) : HandedOn (records ++ [record]) where
  succession := h.succession.snoc hnew hlink
  released earlier a b later hitems hne := by
    rcases List.eq_nil_or_concat later with rfl | ⟨front, last, rfl⟩
    · have hsplit : records ++ [record] = (earlier ++ [a]) ++ [b] := by
        rw [hitems, List.append_assoc]
        rfl
      obtain ⟨rfl, hlast⟩ := List.append_inj' hsplit rfl
      obtain rfl := List.singleton_inj.mp hlast
      exact hreleased a List.getLast?_concat hne
    · have hsplit : records ++ [record] = (earlier ++ a :: b :: front) ++ [last] := by
        rw [hitems, List.concat_eq_append, List.append_assoc]
        rfl
      obtain ⟨rfl, -⟩ := List.append_inj' hsplit rfl
      exact h.released earlier a b front rfl hne

end Lookups

section Runs

variable {run : List GovernanceStep} {step : GovernanceStep} {record : QualificationRecord}

/-- A record saved by the use of a task is the expiry of the current one. -/
theorem expired_of_mem (hrun : GovernanceRun run) (hstep : step ∈ run) {command : UseTaskCommand}
    (hcommand : step.input.command = .useTask command) (hsaved : savedRecord step = some record) :
    ∃ previous, currentQualification (historyOf step) command.scope command.version =
        .ok (some previous) ∧ expiredByUse (contextOf step) previous = some record := by
  obtain ⟨-, -, hadjudicated⟩ := commitGovernance_inv (hrun.step_of_mem hstep)
  obtain ⟨binding, inner, houtcome, ⟨reason, rfl⟩ | hinner⟩ :=
    adjudicated_of_governance hadjudicated
  · unfold savedRecord at hsaved
    rw [houtcome] at hsaved
    exact nomatch hsaved
  · rw [hcommand] at hinner
    unfold savedRecord at hsaved
    rw [houtcome] at hsaved
    obtain ⟨qualification, hqualification, hused⟩ := bind_eq_ok.mp hinner
    cases hused
    obtain ⟨previous, rfl, hexpired⟩ := expired_of_useTask hsaved
    exact ⟨previous, hqualification, hexpired⟩

/-- A change to another version is a grant where none was obtained, or a requalification. -/
theorem RecordChange.released {context : AdjudicationContext} {command : QualificationCommand}
    {previous : QualificationRecord} (h : RecordChange context command (some previous) record)
    (hne : previous.version ≠ record.version) : previous.status ∈ [.revoked, .notObtained] := by
  cases h with
  | granted haction hprevious =>
    rw [hprevious previous rfl]
    decide
  | requalified haction hstatus _ _ _ _ _ =>
    rw [hstatus]
    decide
  | alerted haction _ =>
    obtain ⟨_, _, _, hframe⟩ := restrictExpiredQualification_frame previous context.now
    exact absurd (by simp only [alertedRecord, hframe]) hne
  | undecided haction _ _ _ =>
    obtain ⟨_, _, _, hframe⟩ := restrictExpiredQualification_frame previous context.now
    exact absurd (by simp only [disposedRecord, hframe]) hne
  | checked haction _ _ _ =>
    obtain ⟨_, _, _, hframe⟩ := restrictExpiredQualification_frame previous context.now
    exact absurd (by simp only [checkedRecord, disposedRecord, hframe]) hne
  | suspended haction _ _ => exact absurd rfl hne
  | revoked haction _ _ => exact absurd rfl hne
  | restored haction _ _ => exact absurd rfl hne
  | notExecuted haction _ _ => exact absurd rfl hne
  | closed haction _ _ _ _ => exact absurd rfl hne

/-- What a step saves supersedes the last record of one scope and of its rules. -/
theorem handed_of_saved (hrun : GovernanceRun run) (hstep : step ∈ run)
    (hsaved : savedRecord step = some record)
    (hhanded : ∀ scope version, HandedOn (substantiveRecords (historyOf step) scope version)) :
    ∃ scope version, record.scope.SameScopeAs scope ∧
      record.version.SameSubstantiveVersionAs version ∧
      record.previousDecisionId =
        (substantiveRecords (historyOf step) scope version).getLast?.map (·.decisionId) ∧
      ∀ last ∈ (substantiveRecords (historyOf step) scope version).getLast?,
        last.version ≠ record.version → last.status ∈ [.revoked, .notObtained] := by
  have hmatches : ∀ {scope version current},
      (substantiveRecords (historyOf step) scope version).getLast? = some current →
        current.scope.SameScopeAs scope ∧ current.version.SameSubstantiveVersionAs version := by
    intro scope version current hlast
    exact of_decide_eq_true (List.mem_filter.mp (List.mem_of_getLast? hlast)).2
  obtain ⟨previous, hchange, -⟩ := saved_of_mem hrun hstep hsaved
  cases hcommand : step.input.command with
  | qualification command =>
    obtain ⟨current, hcurrent, hchange⟩ := change_of_mem hrun hstep hcommand hsaved
    rw [(hhanded command.scope command.version).currentSubstantive] at hcurrent
    have hlast := Except.ok.inj hcurrent
    refine ⟨command.scope, command.version, ?_, ?_, ?_, fun last hmem hne => ?_⟩
    · rcases hchange.scope_version with ⟨hscope, -⟩ | ⟨found, hfound, hscope, -⟩
      · exact hscope ▸ .refl _
      · exact hscope ▸ (hmatches (hlast.trans hfound)).1
    · rcases hchange.scope_version with ⟨-, hversion⟩ | ⟨found, hfound, -, hversion⟩
      · exact hversion ▸ .refl _
      · exact hversion ▸ (hmatches (hlast.trans hfound)).2
    · rw [hlast]
      exact (Saved.changed hchange).ids.2
    · rw [hlast, Option.mem_def] at hmem
      subst hmem
      exact hchange.released hne
  | useTask command =>
    obtain ⟨expired, hcurrent, hexpired⟩ := expired_of_mem hrun hstep hcommand hsaved
    obtain ⟨hstatus, -, -, hrecord⟩ := expiredByUse_inv hexpired
    obtain ⟨_, _, _, hframe⟩ := restrictExpiredQualification_frame expired (contextOf step).now
    rw [hframe] at hrecord
    have hlast := ((hhanded command.scope command.version).current_last hcurrent).resolve_right
      fun hreleased => by
        revert hstatus hreleased
        cases expired.status <;> decide
    refine ⟨command.scope, command.version, ?_, ?_, ?_, fun last hmem hne => ?_⟩
    · rw [hrecord]
      exact (hmatches hlast).1
    · rw [hrecord]
      exact (hmatches hlast).2
    · rw [hrecord, hlast]
      rfl
    · rw [hlast, Option.mem_def] at hmem
      cases hmem
      rw [hrecord] at hne
      exact absurd rfl hne
  | registerTaskNode command =>
    rw [hcommand] at hchange
    exact nomatch hchange
  | activateVersion command =>
    rw [hcommand] at hchange
    exact nomatch hchange
  | freezeTask command =>
    rw [hcommand] at hchange
    exact nomatch hchange

/-- The records of every scope and version are handed on, whatever commands a run carries. -/
theorem handedOn_of_run (hrun : GovernanceRun run) (scope : QualificationScope)
    (version : CapabilityVersion) :
    HandedOn (substantiveRecords (governanceHistory run) scope version) := by
  induction hrun generalizing scope version with
  | nil =>
    refine ⟨succession_nil, fun earlier a b later hitems => ?_⟩
    exact absurd hitems (by simp [substantiveRecords, governanceHistory, outcomes,
      qualificationRecords])
  | @snoc run input fact hrun hcommit ih =>
    let step : GovernanceStep := ⟨outcomes run, input, fact⟩
    have hstep : step ∈ run ++ [step] := List.mem_append_right _ (List.mem_singleton_self _)
    have hsplit : substantiveRecords (governanceHistory (run ++ [step])) scope version =
        substantiveRecords (governanceHistory run) scope version ++
          ((savedRecord step).filter fun record => record.scope.SameScopeAs scope ∧
            record.version.SameSubstantiveVersionAs version).toList := by
      unfold substantiveRecords governanceHistory qualificationRecords outcomes
      rw [List.map_append, List.map_append]
      exact scoped_snoc _ _ _ fact.outcome
    rw [hsplit]
    cases hsaved : savedRecord step with
    | none =>
      rw [Option.filter_none, Option.toList_none, List.append_nil]
      exact ih scope version
    | some record =>
      by_cases hmatch : record.scope.SameScopeAs scope ∧
          record.version.SameSubstantiveVersionAs version
      · rw [Option.filter_some, if_pos (decide_eq_true hmatch), Option.toList_some]
        obtain ⟨scope', version', hscope, hversion, hlink, hreleased⟩ :=
          handed_of_saved (hrun.snoc hcommit) hstep hsaved ih
        have hsame : substantiveRecords (historyOf step) scope' version' =
            substantiveRecords (governanceHistory run) scope version :=
          substantiveRecords_congr _ (hscope.symm.trans hmatch.1) (hversion.symm.trans hmatch.2)
        rw [hsame] at hlink hreleased
        refine (ih scope version).snoc (fun hmem => ?_) hlink hreleased
        obtain ⟨other, hother, hid⟩ := List.mem_map.mp hmem
        have hother' : other ∈ savedRecords run := by
          rw [← qualificationRecords_outcomes]
          exact List.mem_of_mem_filter hother
        obtain ⟨otherStep, hotherStep, hotherSaved⟩ := mem_savedRecords.mp hother'
        obtain ⟨hnew, hevent, -⟩ := commitGovernance_inv hcommit
        refine hnew (List.mem_map.mpr ⟨otherStep.outcome, List.mem_map_of_mem hotherStep, ?_⟩)
        rw [← decisionId_of_saved hrun hotherStep hotherSaved, hid,
          decisionId_of_saved (hrun.snoc hcommit) hstep hsaved]
        exact hevent
      · rw [Option.filter_some, if_neg (fun h => hmatch (of_decide_eq_true h)),
          Option.toList_none, List.append_nil]
        exact ih scope version

/-- The current qualification of a scope is unambiguous: one record of the versions that follow the
same rules is not superseded, a lookup of exactly one version does not fail, and a record of
standing that it finds is the one that is not superseded. -/
structure CurrentUnambiguous (history : List GovernanceOutcome) (scope : QualificationScope) :
    Prop where
  unsuperseded : ∀ version, substantiveRecords history scope version ≠ [] →
    ∃! record, record ∈ substantiveRecords history scope version ∧
      ∀ other ∈ substantiveRecords history scope version,
        other.previousDecisionId ≠ some record.decisionId
  exact : ∀ version, ∃ current, currentQualification history scope version = .ok current
  standing : ∀ version record, currentQualification history scope version = .ok (some record) →
    record.status ∈ [.valid, .atRisk] →
      currentSubstantiveQualification history scope version = .ok (some record) ∧
        ∀ other ∈ substantiveRecords history scope version,
          other.previousDecisionId ≠ some record.decisionId

theorem HandedOn.unsuperseded_iff (h : HandedOn records) :
    (record ∈ records ∧ ∀ other ∈ records, other.previousDecisionId ≠ some record.decisionId) ↔
      records.getLast? = some record := by
  have hheads : record ∈ heads (·.decisionId) (·.previousDecisionId) records ↔
      records.getLast? = some record := by
    rw [h.succession.heads_eq, Option.mem_toList]
  rw [← hheads]
  unfold heads
  rw [List.mem_filter, decide_eq_true_eq, List.mem_map]
  constructor
  · rintro ⟨hmem, hnone⟩
    exact ⟨hmem, fun ⟨other, hother, hlink⟩ => hnone other hother hlink⟩
  · rintro ⟨hmem, hnone⟩
    exact ⟨hmem, fun other hother hlink => hnone ⟨other, hother, hlink⟩⟩

/-- The current qualification of a scope is unambiguous exactly when no version returns after
another one that follows the same rules: the records of exactly one version are contiguous among
those that follow its rules. -/
theorem currentUnambiguous_iff (hrun : GovernanceRun run) (scope : QualificationScope) :
    CurrentUnambiguous (governanceHistory run) scope ↔
      ∀ version, Contiguous (·.version = version)
        (substantiveRecords (governanceHistory run) scope version) := by
  have hhanded := handedOn_of_run hrun scope
  constructor
  · intro h version
    exact (hhanded version).current_iff.mp (h.exact version)
  · intro h
    refine ⟨fun version hne => ?_, fun version => (hhanded version).current_iff.mpr (h version),
      fun version record hcurrent hstanding => ?_⟩
    · obtain ⟨last, hlast⟩ := Option.ne_none_iff_exists'.mp
        (fun hnone => hne (List.getLast?_eq_none_iff.mp hnone))
      refine ⟨last, (hhanded version).unsuperseded_iff.mpr hlast, fun other hother => ?_⟩
      exact Option.some.inj (((hhanded version).unsuperseded_iff.mp hother).symm.trans hlast)
    · have hlast := ((hhanded version).current_last hcurrent).resolve_right fun hreleased => by
        revert hstanding hreleased
        cases record.status <;> decide
      rw [(hhanded version).currentSubstantive, hlast]
      exact ⟨rfl, ((hhanded version).unsuperseded_iff.mpr hlast).2⟩

end Runs

namespace SampleQualification

def release : CapabilityVersion := { version with versionId := "version-2" }

def commandOn (version : CapabilityVersion) (action : QualificationAction)
    (previousDecisionId : Option String) (evidence : QualificationEvidence) :
    QualificationCommand :=
  { command action previousDecisionId { evidence with version } with version }

/-- A check of the sample sequence with one gate and an error budget. -/
def gatedCheck (index : ℕ) (scheduledAt : Instant) : FormalCheckIdentity where
  sequenceId := "sequence-1"
  index
  registeredAt := day 0
  scheduledAt
  plannedNodes := [day 1, day 10]
  requiredGates := ["gate"]
  errorBudgetId := some "budget"

def passing (evidence : QualificationEvidence) : QualificationEvidence :=
  { evidence with
    maturitySufficient := some true
    gateResults := [⟨"gate", true⟩] }

def registration (populationKind : PopulationKind) (populationId : String) :
    RequalificationPopulationRegistration where
  applicationId := "application"
  populationKind
  populationId
  registeredAt := day 3
  lockedAt := day 3
  frozenVersionDigest := ""
  registeredMemberIds := ["member"]
  requiredGates := ["gate"]
  digest := ""

def population (populationId evidenceId : String) (t : Instant) : RequalificationPopulation where
  populationId
  evidenceId
  frozenVersionDigest := ""
  registeredMemberIds := ["member"]
  members := [⟨"member", t, t, t, "outcome"⟩]
  requiredGates := ["gate"]
  gateResults := [⟨"gate", true⟩]

def populationEvidence (evidenceId populationId : String) (kind : EvidenceKind) (t : Instant) :
    QualificationEvidence :=
  { evidence evidenceId kind t with
    requalificationApplicationId := some "application"
    requalificationPopulationId := some populationId
    requalificationRegistrationDigest := some "" }

def proof : RequalificationProof where
  applicationId := "application"
  registeredAt := day 3
  lockedAt := day 3
  firstPredictionFrozenAt := day 4
  frozenVersionDigest := some ""
  historicalEvidence := populationEvidence "evidence-h" "population-h" .historicalOosPass (day 3)
  forwardEvidence := populationEvidence "evidence-f" "population-f" .lockedForwardPass (day 9)
  historicalPopulation := some (population "population-h" "evidence-h" (day 2))
  forwardPopulation := some (population "population-f" "evidence-f" (day 4))
  historicalRegistration := some (registration .historical "population-h")
  forwardRegistration := some (registration .forward "population-f")

/-- The sample version is not qualified, its other release is granted and revoked, and the
sample version is requalified. -/
def returning : List GovernanceInput :=
  [input "event-1" (commandOn version .recordNotObtained none
      (evidence "evidence-1" .insufficientEvidence (day 0))),
    input "event-2" (commandOn release .grant (some "event-1")
      (passing { evidence "evidence-2" .qualificationPass (day 1) with
        formalCheck := some (gatedCheck 1 (day 1)) })),
    input "event-3" (commandOn release .revoke (some "event-2")
      (evidence "evidence-3" .originalBasisInvalid (day 2))),
    input "event-4"
      { commandOn version .registerRequalification (some "event-3")
          { evidence "evidence-4" .requalificationApplicationRegistered (day 3) with
            requalificationApplicationId := some "application" } with
        requalificationApplication := some
          { applicationId := "application"
            registeredAt := day 3
            lockedAt := day 3
            frozenVersionDigest := ""
            historicalRegistration := registration .historical "population-h"
            forwardRegistration := registration .forward "population-f" } },
    input "event-5"
      { commandOn version .requalify (some "event-3")
          (passing { evidence "evidence-5" .requalificationPass (day 10) with
            formalCheck := some (gatedCheck 2 (day 10))
            requalificationApplicationId := some "application" }) with
        requalification := some proof }]

/-- The requalified release is found, and the sample version is not. -/
theorem returning_spec : (savedRecords (runOf returning)).map (·.status) =
      [.notObtained, .valid, .revoked, .valid] ∧
    currentQualification (governanceHistory (runOf returning)) scope version =
      .error "qualification history has conflicting revisions" := by
  decide +kernel

/-- Two releases of a version that follow each other are unambiguous. -/
theorem sample_unambiguous :
    CurrentUnambiguous (governanceHistory (runOf (returning.take 3))) scope := by
  have hversions : (qualificationRecords (governanceHistory (runOf (returning.take 3)))).map
      (·.version) = [version, release, release] := by decide +kernel
  refine (currentUnambiguous_iff (governanceRun_runOf (returning.take 3)) scope).mpr fun other => ?_
  intro earlier a between b later hitems ha hb x hx
  have hends : [x, b].Sublist (between ++ b :: later) :=
    (List.singleton_sublist.mpr hx).append (List.singleton_sublist.mpr List.mem_cons_self)
  have hrecords : [a, x, b].Sublist
      (qualificationRecords (governanceHistory (runOf (returning.take 3)))) :=
    ((hends.cons_cons a).trans (List.sublist_append_right earlier _)).trans
      (hitems ▸ List.filter_sublist)
  have hsub : [a.version, x.version, b.version].Sublist [version, release, release] :=
    hversions ▸ hrecords.map QualificationRecord.version
  have heq := hsub.eq_of_length rfl
  simp only [List.cons.injEq] at heq
  have hsame : version = release :=
    heq.1 ▸ heq.2.2.1 ▸ (of_decide_eq_true ha).trans (of_decide_eq_true hb).symm
  exact absurd hsame (by decide)

/-- A version that is requalified after another release of it was granted is not found. -/
theorem sample_ambiguous : ∃ run, GovernanceRun run ∧
    ¬CurrentUnambiguous (governanceHistory run) scope := by
  refine ⟨_, governanceRun_runOf returning, fun h => ?_⟩
  obtain ⟨current, hcurrent⟩ := h.exact version
  rw [returning_spec.2] at hcurrent
  exact nomatch hcurrent

end SampleQualification

end StockProfiler.Qualification
