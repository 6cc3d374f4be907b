import StockProfiler.Qualification.Lineages

/-!
# The life cycle of a restricted qualification

A suspended record is only left by proofs that answer each restriction or by
revocation, and a revoked one only by a requalification whose application was
registered for that revocation. No other step returns either to standing.
-/

namespace StockProfiler.Qualification

variable {context : AdjudicationContext} {command : QualificationCommand}
  {previous record : QualificationRecord}

/-- Expiry only ever suspends a record that was not revoked. -/
theorem restrictExpiredQualification_status (record : QualificationRecord) (now : Instant) :
    restrictExpiredQualification record now = record ∨
      record.status ∈ [.valid, .atRisk, .suspended] ∧
        (restrictExpiredQualification record now).status = .suspended ∧
        (restrictExpiredQualification record now).restrictions ≠ [] := by
  unfold restrictExpiredQualification
  cases hrestriction : expiryRestriction record now with
  | none => exact .inl rfl
  | some restriction =>
    right
    unfold expiryRestriction at hrestriction
    simp only [bind_eq_some, Option.guard_eq_some'] at hrestriction
    obtain ⟨_, _, _, _, _, ⟨hstatus, -⟩, -⟩ := hrestriction
    refine ⟨hstatus, rfl, ?_⟩
    simp

theorem expiredByUse_inv (h : expiredByUse context previous = some record) :
    previous.status ∈ [.valid, .atRisk, .suspended] ∧ record.status = .suspended ∧
      record.restrictions ≠ [] ∧ record = { restrictExpiredQualification previous context.now with
        decisionId := context.eventId
        previousDecisionId := some previous.decisionId
        recordedAt := context.now } := by
  unfold expiredByUse at h
  dsimp only at h
  split at h
  · exact nomatch h
  · rename_i hchanged
    cases h
    rcases restrictExpiredQualification_status previous context.now with
      hsame | ⟨hstatus, hsuspended, hrestrictions⟩
    · exact absurd hsame hchanged
    · exact ⟨hstatus, hsuspended, hrestrictions, rfl⟩

/-- Whether a record that is neither suspended nor revoked has no restrictions, and a suspended
one has some. -/
def RestrictionsFit (record : QualificationRecord) : Prop :=
  (record.status ≠ .suspended → record.status ≠ .revoked → record.restrictions = []) ∧
    (record.status = .suspended → record.restrictions ≠ [])

/-- Expiry keeps restrictions in line with the status. -/
theorem RestrictionsFit.restrictExpired (h : RestrictionsFit record) (now : Instant) :
    RestrictionsFit (restrictExpiredQualification record now) := by
  rcases restrictExpiredQualification_status record now with hsame | ⟨-, hsuspended, hrestricted⟩
  · rwa [hsame]
  · exact ⟨fun hne => absurd hsuspended hne, fun _ => hrestricted⟩

theorem restrictionsFit_of_nil (hstatus : record.status ≠ .suspended)
    (hnil : record.restrictions = []) : RestrictionsFit record :=
  ⟨fun _ _ => hnil, fun hsuspended => absurd hsuspended hstatus⟩

/-- Every step keeps restrictions in line with the status. -/
theorem Saved.restrictionsFit {command : GovernanceCommand} {previous : Option QualificationRecord}
    (h : Saved context command previous record)
    (hprevious : ∀ current ∈ previous, RestrictionsFit current) : RestrictionsFit record := by
  cases h with
  | expired h =>
    obtain ⟨-, hsuspended, hrestrictions, -⟩ := expiredByUse_inv h
    exact ⟨fun hne => absurd hsuspended hne, fun _ => hrestrictions⟩
  | changed h =>
    cases h with
    | notObtained haction => exact restrictionsFit_of_nil (by simp [notObtainedRecord]) rfl
    | granted haction _ => exact restrictionsFit_of_nil (by simp [grantedRecord]) rfl
    | @alerted previous haction _ =>
      have hfit := (hprevious previous rfl).restrictExpired context.now
      unfold alertedRecord RestrictionsFit
      dsimp only
      split
      · exact hfit
      · rename_i hstatus
        simp only [List.mem_cons, List.not_mem_nil, or_false, not_or] at hstatus
        exact ⟨fun _ _ => hfit.1 hstatus.1 hstatus.2, by simp⟩
    | suspended haction _ _ =>
      exact ⟨fun hne => absurd rfl hne, fun _ => by simp [restrictedRecord]⟩
    | revoked haction _ _ => exact ⟨fun _ hne => absurd rfl hne, by simp [restrictedRecord]⟩
    | restored haction _ _ =>
      refine restrictionsFit_of_nil ?_ rfl
      unfold restoredRecord
      dsimp only
      split <;> simp
    | requalified haction _ _ _ _ _ _ =>
      refine restrictionsFit_of_nil ?_ rfl
      unfold requalifiedRecord
      dsimp only
      split <;> simp
    | undecided haction _ _ _ => exact (hprevious _ rfl).restrictExpired context.now
    | @checked previous _ _ passed haction _ _ _ =>
      have hfit := (hprevious previous rfl).restrictExpired context.now
      unfold checkedRecord RestrictionsFit
      dsimp only [disposedRecord]
      split
      · exact ⟨by simp, by simp⟩
      · exact hfit
    | @notExecuted previous _ _ haction _ _ => exact hprevious previous rfl
    | @closed previous proof _ _ _ _ haction _ _ _ _ =>
      have hfit := hprevious previous rfl
      unfold closedRecord RestrictionsFit
      dsimp only
      split
      · exact hfit
      · rename_i hkept
        simp only [List.mem_cons, List.not_mem_nil, or_false, not_or] at hkept
        have hnil := hfit.1 hkept.1.1 hkept.1.2
        split
        · exact ⟨fun _ _ => hnil, by simp⟩
        · exact ⟨fun _ _ => hnil, by simp⟩

/-- Whether a command presents an accepted proof for every restriction of a record. -/
def AnswersEveryRestriction (context : AdjudicationContext) (command : QualificationCommand)
    (previous : QualificationRecord) : Prop :=
  ∀ restriction ∈ previous.restrictions, ∃ proof ∈ command.restorationEvidence,
    proof.resolvesEvidenceId = some restriction.evidence.evidenceId ∧
      RestorationEvidenceIsValid context command proof ∧
      restoresRestriction context.digests proof restriction previous context.now

theorem answersEveryRestriction_of_complete (h : restorationIsComplete context command previous) :
    AnswersEveryRestriction context command previous := by
  obtain ⟨-, -, -, -, hvalid, hproofs⟩ := of_decide_eq_true h
  intro restriction hrestriction
  obtain ⟨proof, hproof, hrestores⟩ := hproofs restriction hrestriction
  have hmem := List.mem_of_find?_eq_some hproof
  have hresolves := List.find?_some hproof
  exact ⟨proof, hmem, of_decide_eq_true hresolves, hvalid proof hmem, hrestores⟩

/-- A suspended record is left by a restoration that answers every restriction, or by
revocation. -/
theorem Saved.leaves_suspended {command : GovernanceCommand}
    (h : Saved context command (some previous) record) (hprevious : previous.status = .suspended)
    (hleft : record.status ≠ .suspended) :
    ∃ change, command = .qualification change ∧
      (change.action = .restore ∧ AnswersEveryRestriction context change previous ∨
        change.action = .revoke ∧ record.status = .revoked) := by
  cases h with
  | expired h => exact absurd (expiredByUse_inv h).2.1 hleft
  | @changed change _ _ h =>
    refine ⟨change, rfl, ?_⟩
    have hexpired : (restrictExpiredQualification previous context.now).status = .suspended := by
      rcases restrictExpiredQualification_status previous context.now with hsame | ⟨-, hstatus, -⟩
      · rw [hsame, hprevious]
      · exact hstatus
    cases h with
    | granted haction hnone =>
      rw [hnone previous rfl] at hprevious
      cases hprevious
    | alerted haction _ => simp [alertedRecord, hexpired] at hleft
    | suspended haction _ _ => exact absurd rfl hleft
    | revoked haction _ _ => exact .inr ⟨haction, rfl⟩
    | restored haction _ hcomplete =>
      exact .inl ⟨haction, answersEveryRestriction_of_complete hcomplete⟩
    | requalified haction hstatus _ _ _ _ _ =>
      rw [hprevious] at hstatus
      cases hstatus
    | undecided haction _ _ _ => exact absurd hexpired hleft
    | @checked _ _ _ passed haction _ _ _ =>
      simp [checkedRecord, disposedRecord, hexpired] at hleft
    | notExecuted haction _ _ => exact absurd hprevious hleft
    | closed haction _ _ _ _ => simp [closedRecord, hprevious] at hleft

/-- A revoked record is only left by a requalification. -/
theorem Saved.leaves_revoked {command : GovernanceCommand}
    (h : Saved context command (some previous) record) (hprevious : previous.status = .revoked)
    (hleft : record.status ≠ .revoked) :
    ∃ change, command = .qualification change ∧ change.action = .requalify := by
  cases h with
  | expired h =>
    have hstatus := (expiredByUse_inv h).1
    simp [hprevious] at hstatus
  | @changed change _ _ h =>
    refine ⟨change, rfl, ?_⟩
    have hexpired : restrictExpiredQualification previous context.now = previous := by
      rcases restrictExpiredQualification_status previous context.now with hsame | ⟨hstatus, -⟩
      · exact hsame
      · simp [hprevious] at hstatus
    cases h with
    | granted haction hnone =>
      rw [hnone previous rfl] at hprevious
      cases hprevious
    | alerted haction _ => simp [alertedRecord, hexpired, hprevious] at hleft
    | suspended haction _ hstatus => exact absurd hprevious hstatus
    | revoked haction _ hstatus => exact absurd hprevious hstatus
    | restored haction hstatus _ =>
      rw [hprevious] at hstatus
      cases hstatus
    | requalified haction _ _ _ _ _ _ => exact haction
    | undecided haction _ _ _ =>
      rw [hexpired] at hleft
      exact absurd hprevious hleft
    | @checked _ _ _ passed haction _ _ _ =>
      simp [checkedRecord, disposedRecord, hexpired, hprevious] at hleft
    | notExecuted haction _ _ => exact absurd hprevious hleft
    | closed haction _ _ _ _ => simp [closedRecord, hprevious] at hleft

/-- Whether a record that was never authorized has no check to follow. -/
def UnobtainedFit (record : QualificationRecord) : Prop :=
  record.status = .notObtained → record.latestCheckEvidence = none

/-- A saved record that is not obtained has no check to follow. -/
theorem Saved.unobtainedFit {command : GovernanceCommand} {previous : Option QualificationRecord}
    (h : Saved context command previous record)
    (hprevious : ∀ current ∈ previous, UnobtainedFit current) : UnobtainedFit record := by
  intro hstatus
  cases h with
  | expired h =>
    rw [(expiredByUse_inv h).2.1] at hstatus
    exact nomatch hstatus
  | changed h =>
    have hexpired : ∀ current ∈ previous,
        (restrictExpiredQualification current context.now).status =
        .notObtained → current.latestCheckEvidence = none := by
      intro current hcurrent hnone
      rcases restrictExpiredQualification_status current context.now with
        hsame | ⟨-, hsuspended, -⟩
      · rw [hsame] at hnone
        exact hprevious current hcurrent hnone
      · rw [hsuspended] at hnone
        exact nomatch hnone
    cases h with
    | notObtained haction => rfl
    | granted haction _ => exact nomatch hstatus
    | alerted haction _ =>
      unfold alertedRecord at hstatus
      dsimp only at hstatus
      split at hstatus
      · rename_i hrestricted
        simp [hstatus] at hrestricted
      · exact nomatch hstatus
    | suspended haction _ _ => exact nomatch hstatus
    | revoked haction _ _ => exact nomatch hstatus
    | restored haction _ _ =>
      unfold restoredRecord at hstatus
      dsimp only at hstatus
      split at hstatus <;> exact nomatch hstatus
    | requalified haction _ _ _ _ _ _ =>
      unfold requalifiedRecord at hstatus
      dsimp only at hstatus
      split at hstatus <;> exact nomatch hstatus
    | @undecided previous _ _ haction hcheck _ _ =>
      obtain ⟨-, -, evidence, hevidence, -⟩ := checkable_inv hcheck
      rw [hexpired previous rfl hstatus] at hevidence
      exact nomatch hevidence
    | @checked previous _ _ passed haction hcheck _ _ =>
      obtain ⟨-, -, evidence, hevidence, -⟩ := checkable_inv hcheck
      unfold checkedRecord at hstatus
      dsimp only at hstatus
      split at hstatus
      · exact nomatch hstatus
      · rw [hexpired previous rfl hstatus] at hevidence
        exact nomatch hevidence
    | @notExecuted previous _ _ haction _ _ => exact hprevious previous rfl hstatus
    | @closed previous _ _ _ _ _ haction _ _ _ _ =>
      unfold closedRecord at hstatus
      dsimp only at hstatus
      split at hstatus
      · exact hprevious previous rfl hstatus
      · split at hstatus <;> exact nomatch hstatus

/-- A check that fails leaves the record suspended or revoked. -/
theorem RecordChange.failed_check (h : RecordChange context command (some previous) record)
    (hfit : UnobtainedFit previous) (haction : command.action = .formalCheck)
    (hfailed : formalCheckPassed command.evidence = some false) :
    record.status = .suspended ∨ record.status = .revoked := by
  have hother : ∀ action, command.action = action → action ≠ .formalCheck → False :=
    fun action hsame hne => hne (hsame.symm.trans haction)
  cases h with
  | @checked _ _ _ passed _ hcheck hpassed _ =>
    rw [hfailed] at hpassed
    cases hpassed
    obtain ⟨-, -, evidence, hevidence, -⟩ := checkable_inv hcheck
    have hobtained : previous.status ≠ .notObtained := fun hnone => by
      rw [hfit hnone] at hevidence
      cases hevidence
    rcases restrictExpiredQualification_status previous context.now with
      hsame | ⟨-, hsuspended, -⟩
    · simp only [checkedRecord, disposedRecord, hsame]
      cases hstatus : previous.status with
      | notObtained => exact absurd hstatus hobtained
      | valid => left; simp
      | atRisk => left; simp
      | suspended => left; simp
      | revoked => right; simp
    · left
      simp [checkedRecord, hsuspended]
  | undecided _ _ hpassed _ =>
    rw [hfailed] at hpassed
    cases hpassed
  | granted hsame _ => exact (hother _ hsame (by simp)).elim
  | alerted hsame _ => exact (hother _ hsame (by simp)).elim
  | suspended hsame _ _ => exact (hother _ hsame (by simp)).elim
  | revoked hsame _ _ => exact (hother _ hsame (by simp)).elim
  | restored hsame _ _ => exact (hother _ hsame (by simp)).elim
  | requalified hsame _ _ _ _ _ _ => exact (hother _ hsame (by simp)).elim
  | notExecuted hsame _ _ => exact (hother _ hsame (by simp)).elim
  | closed hsame _ _ _ _ => exact (hother _ hsame (by simp)).elim

end StockProfiler.Qualification
