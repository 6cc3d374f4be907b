import StockProfiler.Qualification.Requalifications

/-!
# Restrictions that one proof can answer

A restoration presents one proof for each restricted evidence, and each cause asks
for proofs of its own kinds. A suspended record can only be restored when no
evidence is restricted for causes that ask for different kinds.
-/

namespace StockProfiler.Qualification

section Restrictions

variable {restriction item : QualificationRestriction} {basis : QualificationEvidence}
  {context : AdjudicationContext} {command : GovernanceCommand} {now : Instant}
  {previous record : QualificationRecord} {restrictions : List QualificationRestriction}

/-- The kinds of evidence that answer a cause. -/
def RestrictionCause.answeringKinds : RestrictionCause → List EvidenceKind
  | .requiredPremiseUnverifiable => [.originalBasisRestored, .certifiedBasisSubstitution]
  | .formalPerformanceFailure | .evidenceExpired => [.formalCheck]
  | .stateActivityExpired => [.stateActivityRestored]
  | .originalBasisInvalid => []

/-- An accepted proof has a kind that answers the cause of its restriction. -/
theorem kind_of_restoresRestriction {digests : Digests} {proof : QualificationEvidence}
    (h : restoresRestriction digests proof restriction record now) :
    proof.kind ∈ restriction.cause.answeringKinds := by
  unfold restoresRestriction at h
  cases hcause : restriction.cause with
  | requiredPremiseUnverifiable =>
    simp only [hcause, restoresPremise, Option.any_eq_true] at h
    obtain ⟨original, -, h⟩ := h
    simp only [Bool.and_eq_true] at h
    by_cases hkind : proof.kind = .originalBasisRestored
    · simp [RestrictionCause.answeringKinds, hkind]
    · rw [if_neg hkind, Bool.and_eq_true, decide_eq_true_iff] at h
      have hcertified := of_decide_eq_true h.2.1
      simp [RestrictionCause.answeringKinds, hcertified]
  | formalPerformanceFailure =>
    simp only [hcause, restoresPerformance, Option.any_eq_true] at h
    obtain ⟨evidence, -, h⟩ := h
    simp only [Bool.and_eq_true, decide_eq_true_iff] at h
    simp [RestrictionCause.answeringKinds, h.1.1.1.1]
  | evidenceExpired =>
    simp only [hcause, restoresPerformance, Option.any_eq_true] at h
    obtain ⟨evidence, -, h⟩ := h
    simp only [Bool.and_eq_true, decide_eq_true_iff] at h
    simp [RestrictionCause.answeringKinds, h.1.1.1.1]
  | stateActivityExpired =>
    simp only [hcause, restoresStateActivity, Option.any_eq_true] at h
    obtain ⟨basis, -, h⟩ := h
    simp only [Bool.and_eq_true, decide_eq_true_iff] at h
    simp [RestrictionCause.answeringKinds, h.1.1.1.1]
  | originalBasisInvalid => simp [hcause] at h

/-- Whether a further restriction shares its evidence only with restrictions of its cause. -/
def SharesOnlyCause (restrictions : List QualificationRestriction)
    (further : QualificationRestriction) : Prop :=
  ∀ item ∈ restrictions, item.evidence.evidenceId = further.evidence.evidenceId →
    item.cause = further.cause

/-- Whether restrictions on one evidence have one cause. -/
def OneCauseEach (restrictions : List QualificationRestriction) : Prop :=
  ∀ a ∈ restrictions, ∀ b ∈ restrictions, a.evidence.evidenceId = b.evidence.evidenceId →
    a.cause = b.cause

/-- Whether one kind of proof for each evidence answers all restrictions. -/
def AnswerableByOneProofEach (restrictions : List QualificationRestriction) : Prop :=
  ∃ kindOf : String → EvidenceKind, ∀ item ∈ restrictions,
    kindOf item.evidence.evidenceId ∈ item.cause.answeringKinds

/-- One cause for each evidence leaves one kind of proof for it. -/
theorem answerable_of_oneCauseEach (h : OneCauseEach restrictions)
    (hanswered : ∀ item ∈ restrictions, item.cause ≠ .originalBasisInvalid) :
    AnswerableByOneProofEach restrictions := by
  refine ⟨fun evidenceId => ((restrictions.find? (·.evidence.evidenceId = evidenceId)).bind
    (·.cause.answeringKinds.head?)).getD .formalCheck, fun item hitem => ?_⟩
  cases hfound : restrictions.find? (·.evidence.evidenceId = item.evidence.evidenceId) with
  | none =>
    have hno := List.find?_eq_none.mp hfound item hitem
    simp at hno
  | some found =>
    have hmem := List.mem_of_find?_eq_some hfound
    have hid : found.evidence.evidenceId = item.evidence.evidenceId := by
      simpa using List.find?_some hfound
    have hcause := h found hmem item hitem hid
    have hne := hanswered found hmem
    rw [← hcause]
    simp only [hfound, Option.bind_some]
    cases hkind : found.cause with
    | originalBasisInvalid => exact absurd hkind hne
    | requiredPremiseUnverifiable => simp [RestrictionCause.answeringKinds]
    | formalPerformanceFailure => simp [RestrictionCause.answeringKinds]
    | evidenceExpired => simp [RestrictionCause.answeringKinds]
    | stateActivityExpired => simp [RestrictionCause.answeringKinds]

/-- One more restriction keeps one cause for each evidence where it shares only its cause. -/
theorem oneCauseEach_append_singleton {further : QualificationRestriction} :
    OneCauseEach (restrictions ++ [further]) ↔
      OneCauseEach restrictions ∧ SharesOnlyCause restrictions further := by
  constructor
  · intro h
    refine ⟨fun a ha b hb => h a (List.mem_append_left _ ha) b (List.mem_append_left _ hb),
      fun item hitem => h item (List.mem_append_left _ hitem) further ?_⟩
    exact List.mem_append_right _ (List.mem_singleton_self _)
  · rintro ⟨h, hfurther⟩ a ha b hb hid
    rcases List.mem_append.mp ha with hold | hnew <;>
      rcases List.mem_append.mp hb with hold' | hnew'
    · exact h a hold b hold' hid
    · obtain rfl := List.mem_singleton.mp hnew'
      exact hfurther a hold hid
    · obtain rfl := List.mem_singleton.mp hnew
      exact (hfurther b hold' hid.symm).symm
    · rw [List.mem_singleton.mp hnew, List.mem_singleton.mp hnew']

/-- Restrictions that may be added keep one cause for each evidence where each of them shares only
its cause with those before it. -/
theorem oneCauseEach_append_toList {further : Option QualificationRestriction} :
    OneCauseEach (restrictions ++ further.toList) ↔
      OneCauseEach restrictions ∧ ∀ item ∈ further, SharesOnlyCause restrictions item := by
  cases further with
  | none =>
    rw [Option.toList_none, List.append_nil]
    exact (and_iff_left fun _ h => absurd h (Option.not_mem_none _)).symm
  | some item =>
    rw [Option.toList_some, oneCauseEach_append_singleton]
    exact and_congr_right fun _ => ⟨fun h _ hmem => Option.some.inj hmem ▸ h, fun h => h item rfl⟩

/-- Whether evidence has no overall deadline that is still to come. -/
def OverallMissed (basis : QualificationEvidence) (now : Instant) : Prop :=
  ∀ deadline ∈ overallQualificationDeadline basis, deadline < now

/-- Whether the state activity of a record that rests on some evidence is too old, or missing where
it is required. -/
def StateActivityMissed (record : QualificationRecord) (basis : QualificationEvidence)
    (now : Instant) : Prop :=
  let deadline := stateActivityDeadline (record.stateActivityEvidence.getD basis)
  (∀ date ∈ deadline, date < now) ∧
    (deadline = none → basis.version.qualificationPolicy.any (·.requireStateActivity))

/-- Whether a record that stands has missed a deadline for which it is not restricted yet: the
overall one of the evidence it rests on or, as long as that lasts, the one of its state activity. -/
def NewlyMissed (record : QualificationRecord) (basis : QualificationEvidence) (now : Instant) :
    Prop :=
  record.status ∈ [.valid, .atRisk, .suspended] ∧
    (OverallMissed basis now → ∀ item ∈ record.restrictions, item.cause ≠ .evidenceExpired) ∧
    (¬OverallMissed basis now → StateActivityMissed record basis now ∧
      ∀ item ∈ record.restrictions, item.cause ≠ .stateActivityExpired)

instance (basis : QualificationEvidence) (now : Instant) : Decidable (OverallMissed basis now) :=
  inferInstanceAs (Decidable (∀ deadline ∈ overallQualificationDeadline basis, deadline < now))

instance (record : QualificationRecord) (basis : QualificationEvidence) (now : Instant) :
    Decidable (StateActivityMissed record basis now) :=
  inferInstanceAs (Decidable (_ ∧ _))

instance (record : QualificationRecord) (basis : QualificationEvidence) (now : Instant) :
    Decidable (NewlyMissed record basis now) :=
  inferInstanceAs (Decidable (_ ∧ _))

/-- A record that rests on some evidence expires for the deadline that it missed. -/
theorem qualificationExpiryCause_eq (hbasis : record.expiryBasis = some basis) :
    qualificationExpiryCause record now =
      if OverallMissed basis now then some .evidenceExpired
      else if StateActivityMissed record basis now then some .stateActivityExpired else none := by
  unfold qualificationExpiryCause
  rw [hbasis]
  refine if_congr Iff.rfl rfl ?_
  cases hdeadline : stateActivityDeadline (record.stateActivityEvidence.getD basis) with
  | some deadline =>
    have hmissed : StateActivityMissed record basis now ↔ deadline < now := by
      simp [StateActivityMissed, hdeadline]
    exact if_congr hmissed.symm rfl rfl
  | none =>
    have hmissed : StateActivityMissed record basis now ↔
        basis.version.qualificationPolicy.any (·.requireStateActivity) := by
      simp [StateActivityMissed, hdeadline]
    exact if_congr hmissed.symm rfl rfl

/-- Expiry restricts the evidence that a record rests on where it has newly missed a deadline. -/
theorem expiryRestriction_eq_some :
    expiryRestriction record now = some restriction ↔ ∃ basis ∈ record.expiryBasis,
      NewlyMissed record basis now ∧ restriction =
        ⟨if OverallMissed basis now then .evidenceExpired else .stateActivityExpired, basis⟩ := by
  unfold expiryRestriction
  simp only [bind_eq_some, Option.guard_eq_some', pure_eq_some]
  refine exists_congr fun basis => and_congr_right fun hbasis => ?_
  rw [qualificationExpiryCause_eq hbasis]
  by_cases hoverall : OverallMissed basis now
  · rw [if_pos hoverall, if_pos hoverall]
    constructor
    · rintro ⟨cause, hcause, _, ⟨hstatus, hnew⟩, rfl⟩
      cases hcause
      exact ⟨⟨hstatus, fun _ => hnew, fun hnot => absurd hoverall hnot⟩, rfl⟩
    · rintro ⟨⟨hstatus, hnew, -⟩, rfl⟩
      exact ⟨_, rfl, (), ⟨hstatus, hnew hoverall⟩, rfl⟩
  · rw [if_neg hoverall, if_neg hoverall]
    constructor
    · rintro ⟨cause, hcause, _, ⟨hstatus, hnew⟩, rfl⟩
      split at hcause
      · rename_i hactivity
        cases hcause
        exact ⟨⟨hstatus, fun hmissed => absurd hmissed hoverall, fun _ => ⟨hactivity, hnew⟩⟩, rfl⟩
      · exact nomatch hcause
    · rintro ⟨⟨hstatus, -, hnew⟩, rfl⟩
      obtain ⟨hactivity, hnew⟩ := hnew hoverall
      exact ⟨_, if_pos hactivity, (), ⟨hstatus, hnew⟩, rfl⟩

/-- Whether a command first applies the expiry of the current record. -/
def GovernanceCommand.appliesExpiry : GovernanceCommand → Bool
  | .qualification command => command.action ∈ [.alert, .formalCheck]
  | .useTask _ => true
  | _ => false

/-- The restriction that a command puts on its own evidence, if it puts one: a suspension, and a
formal check that fails while the record stands. -/
def ownRestriction (previous : QualificationRecord) :
    GovernanceCommand → Option QualificationRestriction
  | .qualification command =>
    if command.action = .suspend then some ⟨.requiredPremiseUnverifiable, command.evidence⟩
    else if command.action = .formalCheck ∧ formalCheckPassed command.evidence = some false ∧
        previous.status ∈ [.valid, .atRisk, .suspended] then
      some ⟨.formalPerformanceFailure, command.evidence⟩
    else none
  | _ => none

/-- Whether the evidence of a command that restricts a record is not that of another cause and,
where the record has newly missed a deadline, nothing has restricted the evidence it rests on. -/
structure RestrictsApart (context : AdjudicationContext) (command : GovernanceCommand)
    (previous : QualificationRecord) : Prop where
  own : ∀ own ∈ ownRestriction previous command, ∀ item ∈ previous.restrictions,
    item.evidence.evidenceId = own.evidence.evidenceId → item.cause = own.cause
  expired : command.appliesExpiry → ∀ basis ∈ previous.expiryBasis,
    NewlyMissed previous basis context.now →
      (∀ item ∈ previous.restrictions, item.evidence.evidenceId ≠ basis.evidenceId) ∧
      ∀ own ∈ ownRestriction previous command, own.evidence.evidenceId ≠ basis.evidenceId

instance (context : AdjudicationContext) (command : GovernanceCommand)
    (previous : QualificationRecord) : Decidable (RestrictsApart context command previous) :=
  decidable_of_iff _ ⟨fun h : _ ∧ _ => ⟨h.1, h.2⟩, fun h => ⟨h.own, h.expired⟩⟩

/-- The restriction for a deadline that a command reveals as missed. -/
def revealedRestriction (context : AdjudicationContext) (command : GovernanceCommand)
    (previous : QualificationRecord) : Option QualificationRestriction :=
  if command.appliesExpiry then expiryRestriction previous context.now else none

/-- What a command adds to the restrictions of a record that it keeps. -/
def addedRestrictions (context : AdjudicationContext) (command : GovernanceCommand)
    (previous : QualificationRecord) : List QualificationRestriction :=
  (revealedRestriction context command previous).toList ++
    (ownRestriction previous command).toList

/-- A command restricts its own evidence for a cause of its own. -/
theorem ownRestriction_cause {own : QualificationRestriction}
    (h : ownRestriction previous command = some own) :
    own.cause = .requiredPremiseUnverifiable ∨ own.cause = .formalPerformanceFailure := by
  unfold ownRestriction at h
  split at h
  · split at h
    · exact .inl (Option.some.inj h ▸ rfl)
    · split at h
      · exact .inr (Option.some.inj h ▸ rfl)
      · exact nomatch h
  · exact nomatch h

/-- A deadline restricts for a cause that no restriction of the record has, nor the command. -/
theorem revealedRestriction_eq_some {expired : QualificationRestriction} :
    revealedRestriction context command previous = some expired ↔
      command.appliesExpiry ∧ ∃ basis ∈ previous.expiryBasis,
        NewlyMissed previous basis context.now ∧ expired =
          ⟨if OverallMissed basis context.now then .evidenceExpired else .stateActivityExpired,
            basis⟩ := by
  unfold revealedRestriction
  split
  · rename_i hexpiry
    rw [expiryRestriction_eq_some]
    exact (and_iff_right hexpiry).symm
  · rename_i hexpiry
    exact iff_of_false nofun fun h => hexpiry h.1

/-- No restriction of a record has the cause for which it newly missed a deadline. -/
theorem NewlyMissed.cause_ne (h : NewlyMissed record basis now)
    (hitem : item ∈ record.restrictions) : item.cause ≠
      if OverallMissed basis now then .evidenceExpired else .stateActivityExpired := by
  split
  · rename_i hoverall
    exact h.2.1 hoverall item hitem
  · rename_i hoverall
    exact (h.2.2 hoverall).2 item hitem

/-- What a command adds keeps one cause for each evidence exactly where it restricts apart. -/
theorem oneCauseEach_added :
    OneCauseEach (previous.restrictions ++ addedRestrictions context command previous) ↔
      OneCauseEach previous.restrictions ∧ RestrictsApart context command previous := by
  rw [addedRestrictions, ← List.append_assoc, oneCauseEach_append_toList,
    oneCauseEach_append_toList, and_assoc]
  refine and_congr_right fun _ => ⟨fun ⟨hexpired, hown⟩ => ⟨?_, ?_⟩, fun h => ⟨?_, ?_⟩⟩
  · exact fun own hmem item hitem => hown own hmem item (List.mem_append_left _ hitem)
  · intro hexpiry basis hbasis hmissed
    have hrevealed := revealedRestriction_eq_some.mpr ⟨hexpiry, basis, hbasis, hmissed, rfl⟩
    refine ⟨fun item hitem hid => hmissed.cause_ne hitem (hexpired _ hrevealed item hitem hid),
      fun own hmem hid => ?_⟩
    -- The two causes would have to be one, but a command has causes of its own.
    have hsame := hown own hmem _ (List.mem_append_right _
      (Option.mem_toList.mpr hrevealed)) hid.symm
    rcases ownRestriction_cause hmem with hcause | hcause <;>
      rw [hcause] at hsame <;> split at hsame <;> exact nomatch hsame
  · intro expired hmem item hitem hid
    obtain ⟨hexpiry, basis, hbasis, hmissed, rfl⟩ := revealedRestriction_eq_some.mp hmem
    exact absurd hid ((h.expired hexpiry basis hbasis hmissed).1 item hitem)
  · intro own hmem item hitem hid
    rcases List.mem_append.mp hitem with hitem | hitem
    · exact h.own own hmem item hitem hid
    · obtain ⟨hexpiry, basis, hbasis, hmissed, rfl⟩ :=
        revealedRestriction_eq_some.mp (Option.mem_toList.mp hitem)
      exact absurd hid.symm ((h.expired hexpiry basis hbasis hmissed).2 own hmem)

/-- A command that adds nothing restricts apart. -/
theorem restrictsApart_of_nil (h : addedRestrictions context command previous = []) :
    RestrictsApart context command previous := by
  obtain ⟨hrevealed, hown⟩ := List.append_eq_nil_iff.mp h
  rw [Option.toList_eq_nil_iff] at hrevealed hown
  refine ⟨fun own hmem => ?_, fun hexpiry basis hbasis hmissed => ?_⟩
  · rw [hown] at hmem
    exact nomatch hmem
  · exact nomatch hrevealed.symm.trans
      (revealedRestriction_eq_some.mpr ⟨hexpiry, basis, hbasis, hmissed, rfl⟩)

/-- Expiry adds the restriction of the deadline, and a record that it restricts is suspended. -/
theorem restrictExpired_restrictions (record : QualificationRecord) (now : Instant) :
    (restrictExpiredQualification record now).restrictions =
        record.restrictions ++ (expiryRestriction record now).toList ∧
      (expiryRestriction record now ≠ none →
        (restrictExpiredQualification record now).status = .suspended) := by
  unfold restrictExpiredQualification
  cases expiryRestriction record now with
  | none => exact ⟨(List.append_nil _).symm, fun hne => absurd rfl hne⟩
  | some restriction => exact ⟨rfl, fun _ => rfl⟩

/-- Expiry does not decide whether a record stands. -/
theorem restrictExpired_standing (record : QualificationRecord) (now : Instant) :
    (restrictExpiredQualification record now).status ∈ [.valid, .atRisk, .suspended] ↔
      record.status ∈ [.valid, .atRisk, .suspended] := by
  rcases restrictExpiredQualification_status record now with hsame | ⟨hstanding, hsuspended, -⟩
  · rw [hsame]
  · exact iff_of_true (by simp [hsuspended]) hstanding

/-- How a saved record follows the restrictions of the one before it: it has none, it is revoked, or
it has what the command adds, and then it is suspended. -/
inductive RestrictionsFollow (context : AdjudicationContext) (command : GovernanceCommand)
    (previous : Option QualificationRecord) (record : QualificationRecord) : Prop where
  | cleared (hnone : ∀ current ∈ previous, addedRestrictions context command current = [])
      (hnil : record.restrictions = [])
  | revoked (hnone : ∀ current ∈ previous, addedRestrictions context command current = [])
      (hrevoked : record.status = .revoked)
  | kept {current : QualificationRecord} (hprevious : previous = some current)
      (hadded : record.restrictions =
        current.restrictions ++ addedRestrictions context command current)
      (hsuspended : addedRestrictions context command current ≠ [] → record.status = .suspended)
      (hrevoked : current.status = .revoked → record.status = .revoked)

/-- An action that neither restricts nor applies expiry adds nothing. -/
theorem addedRestrictions_eq_nil {command : QualificationCommand}
    (haction : command.action ∉ [.alert, .formalCheck, .suspend]) :
    addedRestrictions context (.qualification command) previous = [] := by
  simp only [List.mem_cons, List.not_mem_nil, or_false, not_or] at haction
  obtain ⟨halert, hcheck, hsuspend⟩ := haction
  simp [addedRestrictions, revealedRestriction, GovernanceCommand.appliesExpiry, ownRestriction,
    halert, hcheck, hsuspend]

/-- A command that applies expiry and restricts nothing adds the restriction of the deadline. -/
theorem addedRestrictions_of_expiry (hexpiry : command.appliesExpiry)
    (hown : ownRestriction previous command = none) :
    addedRestrictions context command previous =
      (expiryRestriction previous context.now).toList := by
  rw [addedRestrictions, revealedRestriction, if_pos hexpiry, hown, Option.toList_none,
    List.append_nil]

/-- A record that changes nothing but its identity after its expiry keeps and adds restrictions. -/
theorem restrictionsFollow_of_expiry (hexpiry : command.appliesExpiry)
    (hown : ownRestriction previous command = none) (hrestrictions : record.restrictions =
      (restrictExpiredQualification previous context.now).restrictions)
    (hstatus : ∀ status ∈ [QualificationStatus.suspended, .revoked],
      (restrictExpiredQualification previous context.now).status = status →
        record.status = status) : RestrictionsFollow context command (some previous) record := by
  obtain ⟨happended, hsuspended⟩ := restrictExpired_restrictions previous context.now
  have hadded : addedRestrictions context command previous = _ :=
    addedRestrictions_of_expiry hexpiry hown
  refine .kept rfl (by rw [hrestrictions, happended, hadded]) (fun hne => ?_) fun hrevoked => ?_
  · rw [hadded, Ne, Option.toList_eq_nil_iff] at hne
    exact hstatus _ (by simp) (hsuspended hne)
  · refine hstatus _ (by simp) ?_
    rcases restrictExpiredQualification_status previous context.now with hsame | ⟨hstanding, -⟩
    · rw [hsame]
      exact hrevoked
    · simp [hrevoked] at hstanding

/-- Every saved record follows the restrictions of the one before it. -/
theorem Saved.restrictionsFollow {previous : Option QualificationRecord}
    (h : Saved context command previous record) :
    RestrictionsFollow context command previous record := by
  cases h with
  | @expired _ previous _ h =>
    obtain ⟨-, -, -, rfl⟩ := expiredByUse_inv h
    exact restrictionsFollow_of_expiry rfl rfl rfl fun _ _ hstatus => hstatus
  | @changed command _ _ h =>
    have hnone : command.action ∉ [.alert, .formalCheck, .suspend] → ∀ current ∈ previous,
        addedRestrictions context (.qualification command) current = [] :=
      fun haction _ _ => addedRestrictions_eq_nil haction
    cases h with
    | notObtained haction => exact .cleared (hnone (by simp [haction])) rfl
    | granted haction _ => exact .cleared (hnone (by simp [haction])) rfl
    | requalified haction _ _ _ _ _ _ => exact .cleared (hnone (by simp [haction])) rfl
    | restored haction _ _ => exact .cleared (hnone (by simp [haction])) rfl
    | revoked haction _ _ => exact .revoked (hnone (by simp [haction])) rfl
    | @alerted previous haction _ =>
      refine restrictionsFollow_of_expiry (by simp [GovernanceCommand.appliesExpiry, haction])
        (by simp [ownRestriction, haction]) rfl fun status hkept hstatus => ?_
      simp only [alertedRecord, hstatus, if_pos hkept]
    | @undecided previous _ _ haction _ hpassed _ =>
      exact restrictionsFollow_of_expiry (by simp [GovernanceCommand.appliesExpiry, haction])
        (by simp [ownRestriction, haction, hpassed]) rfl fun _ _ hstatus => hstatus
    | @suspended previous haction _ hstatus =>
      refine .kept rfl ?_ (fun _ => rfl) fun hrevoked => absurd hrevoked hstatus
      simp [restrictedRecord, addedRestrictions, revealedRestriction,
        GovernanceCommand.appliesExpiry, ownRestriction, haction]
    | @checked previous _ _ passed haction _ hpassed _ =>
      have hexpiry : GovernanceCommand.appliesExpiry (.qualification command) = true := by
        simp [GovernanceCommand.appliesExpiry, haction]
      by_cases hrestricts : passed = false ∧
          (restrictExpiredQualification previous context.now).status ∈ [.valid, .atRisk, .suspended]
      · obtain ⟨rfl, hstanding⟩ := hrestricts
        have hown : ownRestriction previous (.qualification command) =
            some ⟨.formalPerformanceFailure, command.evidence⟩ := by
          rw [restrictExpired_standing] at hstanding
          simp [ownRestriction, haction, hpassed, hstanding]
        refine .kept rfl ?_ (fun _ => ?_) fun hrevoked => ?_
        · rw [addedRestrictions, revealedRestriction, if_pos hexpiry, hown, Option.toList_some,
            ← List.append_assoc, ← (restrictExpired_restrictions previous context.now).1]
          simp [checkedRecord, hstanding]
        · simp [checkedRecord, hstanding]
        · rw [restrictExpired_standing, hrevoked] at hstanding
          exact absurd hstanding (by decide)
      · have hrestricted : (!passed && decide ((restrictExpiredQualification previous
            context.now).status ∈ [.valid, .atRisk, .suspended])) = false := by
          cases passed with
          | true => rfl
          | false => exact decide_eq_false fun hstanding => hrestricts ⟨rfl, hstanding⟩
        rw [restrictExpired_standing] at hrestricts
        refine restrictionsFollow_of_expiry hexpiry ?_ ?_ fun _ _ hstatus => ?_
        · cases passed with
          | true => simp [ownRestriction, haction, hpassed]
          | false =>
            have hnot : previous.status ∉ [.valid, .atRisk, .suspended] :=
              fun hstanding => hrestricts ⟨rfl, hstanding⟩
            simp only [ownRestriction, haction, hpassed, hnot]
            rfl
        · simp only [checkedRecord, hrestricted]
          rfl
        · simp only [checkedRecord, hrestricted]
          exact hstatus
    | @notExecuted previous _ _ haction _ _ =>
      refine .kept rfl ?_ (fun hne => absurd (hnone (by simp [haction]) previous rfl) hne) id
      rw [hnone (by simp [haction]) previous rfl, List.append_nil]
      rfl
    | @closed previous _ _ _ _ _ haction _ _ _ _ =>
      refine .kept rfl ?_ (fun hne => absurd (hnone (by simp [haction]) previous rfl) hne)
        fun hrevoked => ?_
      · rw [hnone (by simp [haction]) previous rfl, List.append_nil]
        rfl
      · simp [closedRecord, hrevoked]

/-- Whether a record that is not revoked has one cause for each restricted evidence, none of
them a revocation. -/
def OneCauseFit (record : QualificationRecord) : Prop :=
  record.status ≠ .revoked → OneCauseEach record.restrictions ∧
    ∀ item ∈ record.restrictions, item.cause ≠ .originalBasisInvalid

/-- No command adds a restriction as a revocation does. -/
theorem added_cause (h : item ∈ addedRestrictions context command previous) :
    item.cause ≠ .originalBasisInvalid := by
  rcases List.mem_append.mp h with hrevealed | hown
  · obtain ⟨-, basis, -, -, rfl⟩ :=
      revealedRestriction_eq_some.mp (Option.mem_toList.mp hrevealed)
    dsimp only
    split <;> exact nofun
  · intro hcause
    rcases ownRestriction_cause (Option.mem_toList.mp hown) with hpremise | hperformance
    · exact nomatch hpremise.symm.trans hcause
    · exact nomatch hperformance.symm.trans hcause

/-- A step that restricts apart keeps one cause for each evidence. -/
theorem Saved.oneCauseFit {previous : Option QualificationRecord}
    (h : Saved context command previous record)
    (hapart : ∀ current ∈ previous, RestrictsApart context command current)
    (hprevious : ∀ current ∈ previous, OneCauseFit current) : OneCauseFit record := by
  intro hstatus
  cases h.restrictionsFollow with
  | cleared _ hnil =>
    rw [hnil]
    exact ⟨fun _ ha => absurd ha List.not_mem_nil, fun _ ha => absurd ha List.not_mem_nil⟩
  | revoked _ hrevoked => exact absurd hrevoked hstatus
  | @kept current hcurrent hadded _ hrevoked =>
    obtain ⟨hone, hnone⟩ := hprevious current hcurrent fun h => hstatus (hrevoked h)
    rw [hadded]
    refine ⟨oneCauseEach_added.mpr ⟨hone, hapart current hcurrent⟩, fun item hitem => ?_⟩
    exact (List.mem_append.mp hitem).elim (hnone item) added_cause

/-- A step after which a suspended record has one cause for each evidence restricts apart. -/
theorem Saved.restrictsApart {current : QualificationRecord}
    (h : Saved context command (some current) record)
    (hone : record.status = .suspended → OneCauseEach record.restrictions) :
    RestrictsApart context command current := by
  cases h.restrictionsFollow with
  | cleared hnone _ => exact restrictsApart_of_nil (hnone current rfl)
  | revoked hnone _ => exact restrictsApart_of_nil (hnone current rfl)
  | kept hcurrent hadded hsuspended _ =>
    cases hcurrent
    by_cases hnil : addedRestrictions context command current = []
    · exact restrictsApart_of_nil hnil
    · have hkept := hone (hsuspended hnil)
      rw [hadded] at hkept
      exact (oneCauseEach_added.mp hkept).2

/-- **Suspended records stay answerable** exactly in the runs whose steps restrict apart: there no
suspended record asks one proof to be of two kinds, and a step that does not restrict apart leaves a
suspended record that does. -/
theorem suspended_answerable_iff {run : List GovernanceStep} (hrun : GovernanceRun run) :
    (∀ step ∈ run, ∀ record ∈ savedRecord step, ∀ previous ∈ savedRecords run,
      record.previousDecisionId = some previous.decisionId →
        RestrictsApart (contextOf step) step.input.command previous) ↔
    ∀ record ∈ savedRecords run, record.status = .suspended →
      OneCauseEach record.restrictions ∧ AnswerableByOneProofEach record.restrictions := by
  constructor
  · intro hapart record hrecord hsuspended
    have hfits : ∀ record ∈ savedRecords run, OneCauseFit record := by
      refine forall_saved hrun fun step hstep previous record hsaved hchange hprevious => ?_
      refine hchange.oneCauseFit (fun current hcurrent => ?_) fun current hcurrent =>
        (hprevious current hcurrent).2
      refine hapart step hstep record hsaved current (hprevious current hcurrent).1 ?_
      rw [hchange.ids.2, Option.mem_def.mp hcurrent]
      rfl
    obtain ⟨hone, hnone⟩ := hfits record hrecord (by simp [hsuspended])
    exact ⟨hone, answerable_of_oneCauseEach hone hnone⟩
  · intro hanswerable step hstep record hsaved previous hprevious hlink
    obtain ⟨found, hchange, hmem⟩ := saved_of_mem hrun hstep hsaved
    have hid := hchange.ids.2
    rw [hlink] at hid
    obtain ⟨current, rfl, hsame⟩ := Option.map_eq_some_iff.mp hid.symm
    obtain rfl := record_unique hrun (history_subset hrun hstep (hmem current rfl)) hprevious hsame
    exact hchange.restrictsApart fun hsuspended =>
      (hanswerable record (mem_savedRecords.mpr ⟨step, hstep, hsaved⟩) hsuspended).1

end Restrictions

namespace SampleQualification

/-- An alert on the suspended sample qualification, after its state activity has expired. -/
def alertWhileSuspended : GovernanceInput := input "event-3" (command .alert (some "event-2")
  (evidence "evidence-3" .diagnosticAlert (day 100)))

def suspension : List GovernanceInput := [granting, suspending, alertWhileSuspended]

/-- The sample qualification, suspended on two pieces of evidence for two causes, asks each proof
to be of one kind. -/
theorem sample_answerable : (savedRecords (runOf suspension)).map (fun record =>
      (record.status, record.restrictions.map fun item => (item.cause, item.evidence.evidenceId))) =
      [(.valid, []), (.suspended, [(.requiredPremiseUnverifiable, "evidence-2")]),
        (.suspended, [(.requiredPremiseUnverifiable, "evidence-2"),
          (.stateActivityExpired, "evidence-1")])] ∧
    ∀ record ∈ savedRecords (runOf suspension), record.status = .suspended →
      OneCauseEach record.restrictions ∧ AnswerableByOneProofEach record.restrictions :=
  ⟨by decide +kernel,
    (suspended_answerable_iff (governanceRun_runOf suspension)).mp (by decide +kernel)⟩

/-- An alert after the state activity of the grant has expired. -/
def alertAfterActivity : GovernanceInput := input "event-2" (command .alert (some "event-1")
  (evidence "evidence-2" .diagnosticAlert (day 100)))

def alertAfterExpiry : GovernanceInput := input "event-3" (command .alert (some "event-2")
  (evidence "evidence-3" .diagnosticAlert (day 250)))

/-- A grant that expires for state activity first and as a whole later. -/
def twoExpiries : List GovernanceInput := [granting, alertAfterActivity, alertAfterExpiry]

/-- Two expiries restrict the evidence of the grant for two causes, and no proof answers both. -/
theorem sample_unanswerable : ∃ run, GovernanceRun run ∧ ∃ record ∈ savedRecords run,
    record.status = .suspended ∧ ∃ a ∈ record.restrictions, ∃ b ∈ record.restrictions,
      a.evidence.evidenceId = b.evidence.evidenceId ∧ a.cause ≠ b.cause ∧
        ∀ digests proof now, ¬(restoresRestriction digests proof a record now ∧
          restoresRestriction digests proof b record now) := by
  have hlast : ∃ record ∈ savedRecords (runOf twoExpiries), record.status = .suspended ∧
      ∃ a ∈ record.restrictions, ∃ b ∈ record.restrictions,
        a.evidence.evidenceId = b.evidence.evidenceId ∧ a.cause = .stateActivityExpired ∧
          b.cause = .evidenceExpired := by decide +kernel
  obtain ⟨record, hrecord, hsuspended, a, ha, b, hb, hid, hcause, hcause'⟩ := hlast
  refine ⟨runOf twoExpiries, governanceRun_runOf twoExpiries, record, hrecord, hsuspended, a, ha,
    b, hb, hid, by simp [hcause, hcause'], fun digests proof now hboth => ?_⟩
  have hkind := kind_of_restoresRestriction hboth.1
  have hkind' := kind_of_restoresRestriction hboth.2
  simp only [hcause, hcause', RestrictionCause.answeringKinds, List.mem_singleton] at hkind hkind'
  rw [hkind] at hkind'
  exact nomatch hkind'

end SampleQualification

end StockProfiler.Qualification
