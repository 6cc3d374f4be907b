import StockProfiler.Qualification.Requalifications

/-!
# Formal nodes of a qualification

The nodes that a qualification disposes of are the planned nodes after the check
that authorized it, one after another, and the index of a check counts the checks
executed so far. Requalification continues the sequence of the first grant.
-/

namespace StockProfiler.Qualification

variable {check original : FormalCheckIdentity} {disposition : FormalNodeDisposition}
  {original? : Option FormalCheckIdentity} {other : QualificationRecord}
  {context : AdjudicationContext} {record : QualificationRecord}

/-- Whether the planned nodes after a check come in order, each one where it is first listed. -/
def FormalCheckIdentity.NodesInOrder (check : FormalCheckIdentity) : Prop :=
  ∀ node ∈ check.plannedNodes, check.scheduledAt < node →
    ∀ earlier ∈ check.plannedNodes.takeWhile (· ≠ node), earlier < node

instance (check : FormalCheckIdentity) : Decidable check.NodesInOrder :=
  inferInstanceAs (Decidable (∀ node ∈ check.plannedNodes, check.scheduledAt < node →
    ∀ earlier ∈ check.plannedNodes.takeWhile (· ≠ node), earlier < node))

theorem mem_takeWhile_of_find? {α : Type*} [DecidableEq α] {p : α → Bool} {items : List α}
    {first other : α} (h : items.find? p = some first) (hother : p other)
    (hne : first ≠ other) : first ∈ items.takeWhile (· ≠ other) := by
  induction items with
  | nil => exact nomatch h
  | cons a rest ih =>
    by_cases ha : p a
    · rw [List.find?_cons_of_pos ha] at h
      cases h
      simp [hne]
    · rw [List.find?_cons_of_neg ha] at h
      have hskip : a ≠ other := fun hsame => ha (hsame ▸ hother)
      have hrest := ih h
      simp only [ne_eq, decide_not] at hrest ⊢
      simp [hskip, hrest]

/-- Among planned nodes in order, the first one found after an anchor is the least. -/
theorem FormalCheckIdentity.NodesInOrder.least (h : check.NodesInOrder) {anchor node : Instant}
    (hanchor : check.scheduledAt ≤ anchor)
    (hnode : check.plannedNodes.find? (anchor < ·) = some node) :
    ∀ other ∈ check.plannedNodes, anchor < other → node ≤ other := by
  intro other hother hafter
  by_cases hne : node = other
  · exact hne.le
  · have hbefore := mem_takeWhile_of_find? hnode (decide_eq_true hafter) hne
    exact (h other hother (hanchor.trans_lt hafter) node hbefore).le

/-- The number of checks that were executed. -/
def executedCount (dispositions : List FormalNodeDisposition) : ℕ :=
  (dispositions.filter (·.status.executed)).length

/-- The instant after which the next planned node lies. -/
def lastNode (original : FormalCheckIdentity) (dispositions : List FormalNodeDisposition) :
    Instant :=
  (dispositions.getLast?.map (·.scheduledAt)).getD original.scheduledAt

/-- Whether dispositions follow the sequence of an authorizing check: their nodes are increasing
planned nodes after it, none is skipped, and the index of each counts the executed checks. -/
structure FollowsSequence (original : FormalCheckIdentity)
    (dispositions : List FormalNodeDisposition) : Prop where
  increasing : (dispositions.map (·.scheduledAt)).Pairwise (· < ·)
  planned : ∀ disposition ∈ dispositions, disposition.scheduledAt ∈ original.plannedNodes ∧
    original.scheduledAt < disposition.scheduledAt
  complete : ∀ node ∈ original.plannedNodes, original.scheduledAt < node →
    node ≤ lastNode original dispositions → node ∈ dispositions.map (·.scheduledAt)
  indices : ∀ earlier disposition later, dispositions = earlier ++ disposition :: later →
    disposition.checkIndex = original.index + executedCount (earlier ++ [disposition])

theorem followsSequence_nil (original : FormalCheckIdentity) : FollowsSequence original [] where
  increasing := List.Pairwise.nil
  planned _ h := nomatch h
  complete _ _ hafter hle := absurd (hafter.trans_le hle) (lt_irrefl _)
  indices _ _ _ h := by simp at h

@[simp] theorem executedCount_snoc (dispositions : List FormalNodeDisposition)
    (disposition : FormalNodeDisposition) : executedCount (dispositions ++ [disposition]) =
      executedCount dispositions + if disposition.status.executed then 1 else 0 := by
  unfold executedCount
  rw [List.filter_append, List.length_append]
  cases h : disposition.status.executed <;> simp [h]

theorem FollowsSequence.le_lastNode {dispositions : List FormalNodeDisposition}
    (h : FollowsSequence original dispositions) :
    original.scheduledAt ≤ lastNode original dispositions ∧
      ∀ disposition ∈ dispositions, disposition.scheduledAt ≤ lastNode original dispositions := by
  rcases List.eq_nil_or_concat dispositions with rfl | ⟨front, last, rfl⟩
  · exact ⟨le_rfl, fun _ hmem => absurd hmem List.not_mem_nil⟩
  · rw [List.concat_eq_append] at h ⊢
    have hlast : lastNode original (front ++ [last]) = last.scheduledAt := by
      unfold lastNode
      rw [List.getLast?_concat]
      rfl
    have hmem : last ∈ front ++ [last] := List.mem_append_right _ (List.mem_singleton_self _)
    rw [hlast]
    refine ⟨(h.planned last hmem).2.le, fun disposition hdisposition => ?_⟩
    rcases List.mem_append.mp hdisposition with hfront | hsame
    · have hincreasing := h.increasing
      rw [List.map_append, List.map_singleton] at hincreasing
      obtain ⟨-, -, hlt⟩ := List.pairwise_append.mp hincreasing
      exact (hlt _ (List.mem_map_of_mem hfront) _ (List.mem_singleton_self _)).le
    · rw [List.mem_singleton.mp hsame]

/-- A disposition of the next node in order keeps the sequence followed. -/
theorem FollowsSequence.snoc {dispositions : List FormalNodeDisposition}
    (h : FollowsSequence original dispositions) (hordered : original.NodesInOrder)
    (hnext : original.plannedNodes.find? (lastNode original dispositions < ·) =
      some disposition.scheduledAt) (hindex : disposition.checkIndex =
      original.index + executedCount (dispositions ++ [disposition])) :
    FollowsSequence original (dispositions ++ [disposition]) := by
  obtain ⟨hanchor, hle⟩ := h.le_lastNode
  have hafter : lastNode original dispositions < disposition.scheduledAt := by
    simpa using List.find?_some hnext
  have hlast : lastNode original (dispositions ++ [disposition]) = disposition.scheduledAt := by
    unfold lastNode
    rw [List.getLast?_concat]
    rfl
  constructor
  · rw [List.map_append, List.map_singleton]
    refine List.pairwise_append.mpr ⟨h.increasing, List.pairwise_singleton _ _, ?_⟩
    intro node hnode last hmem
    obtain ⟨earlier, hearlier, rfl⟩ := List.mem_map.mp hnode
    rw [List.mem_singleton.mp hmem]
    exact (hle earlier hearlier).trans_lt hafter
  · intro other hother
    rcases List.mem_append.mp hother with hold | hnew
    · exact h.planned other hold
    · rw [List.mem_singleton.mp hnew]
      exact ⟨List.mem_of_find?_eq_some hnext, hanchor.trans_lt hafter⟩
  · intro node hnode hlater hle'
    rw [hlast] at hle'
    rw [List.map_append, List.map_singleton, List.mem_append, List.mem_singleton]
    by_cases hold : node ≤ lastNode original dispositions
    · exact .inl (h.complete node hnode hlater hold)
    · have hleast := hordered.least hanchor hnext node hnode (not_le.mp hold)
      exact .inr (le_antisymm hle' hleast)
  · intro earlier other later hsplit
    rcases split_snoc hsplit with ⟨-, rfl, rfl⟩ | ⟨front, -, hsplit⟩
    · exact hindex
    · exact h.indices earlier other front hsplit

theorem SameFormalSequence.trans {a b c : FormalCheckIdentity} (h : SameFormalSequence a b)
    (h' : SameFormalSequence b c) : SameFormalSequence a c := by
  obtain ⟨h1, h2, h3, h4, h5⟩ := h
  obtain ⟨h1', h2', h3', h4', h5'⟩ := h'
  exact ⟨h1.trans h1', h2.trans h2', h3.trans h3', h4.trans h4', h5.trans h5'⟩

/-- The checks of a requalification are read off the record and the command. -/
theorem requalificationParts_checks {command : QualificationCommand} {proof : RequalificationProof}
    {registered : Option RegisteredRequalificationApplication} {parts : RequalificationParts}
    (h : requalificationParts command record proof registered = some parts) :
    ∃ evidence, record.latestCheckEvidence = some evidence ∧
      evidence.formalCheck = some parts.originalCheck ∧
      command.evidence.formalCheck = some parts.check := by
  unfold requalificationParts at h
  simp only [bind_eq_some, pure_eq_some] at h
  obtain ⟨_, -, _, -, _, -, _, -, _, -, _, -, evidence, hevidence, original, horiginal, check,
    hcheck, rfl⟩ := h
  exact ⟨evidence, hevidence, horiginal, hcheck⟩

/-- What a record with a check keeps of the sequence that its authority started. -/
structure SequenceState (original check : FormalCheckIdentity) (record : QualificationRecord) :
    Prop where
  same : SameFormalSequence check original
  index : check.index = original.index + executedCount record.formalNodeDispositions
  start : record.formalNodeDispositions = [] →
    check.scheduledAt = original.scheduledAt ∧ record.lastFormalNode = none
  follows : FollowsSequence original record.formalNodeDispositions

/-- The next formal node of a record is the planned node after its last one. -/
theorem SequenceState.nextFormalNode_eq (h : SequenceState original check record) :
    nextFormalNode record check =
      original.plannedNodes.find? (lastNode original record.formalNodeDispositions < ·) := by
  unfold nextFormalNode lastNode
  obtain ⟨-, -, hplanned, -⟩ := h.same
  cases hlast : record.formalNodeDispositions.getLast? with
  | none =>
    obtain ⟨hscheduled, hnone⟩ := h.start (List.getLast?_eq_none_iff.mp hlast)
    rw [hnone, hplanned]
    simp [hscheduled]
  | some last => simp [hplanned]

/-- A further disposition of the next formal node continues the sequence. -/
theorem SequenceState.snoc (h : SequenceState original check record)
    (hordered : original.NodesInOrder)
    (hnext : nextFormalNode record check = some disposition.scheduledAt)
    (hindex : disposition.checkIndex = check.index + if disposition.status.executed then 1 else 0) :
    FollowsSequence original (record.formalNodeDispositions ++ [disposition]) := by
  refine h.follows.snoc hordered (h.nextFormalNode_eq ▸ hnext) ?_
  rw [executedCount_snoc, hindex, h.index, Nat.add_assoc]

/-- Whether a record follows the sequence of the check that its authority started with, if it
started with one. -/
structure SequenceFit (original? : Option FormalCheckIdentity) (record : QualificationRecord) :
    Prop where
  checked : ∀ evidence ∈ record.formalEvidence, evidence.formalCheck.isSome
  state : ∀ evidence ∈ record.latestCheckEvidence, ∀ check ∈ evidence.formalCheck,
    ∃ original ∈ original?, SequenceState original check record

/-- A record with the checks and dispositions of another follows its sequence. -/
theorem SequenceFit.congr (h : SequenceFit original? record)
    (hauthorized : other.authorizationEvidence = record.authorizationEvidence)
    (hformal : other.formalEvidence = record.formalEvidence)
    (hlast : other.lastFormalNode = record.lastFormalNode)
    (hdispositions : other.formalNodeDispositions = record.formalNodeDispositions) :
    SequenceFit original? other := by
  refine ⟨hformal ▸ h.checked, fun evidence hevidence check hcheck => ?_⟩
  have hlatest : other.latestCheckEvidence = record.latestCheckEvidence := by
    unfold QualificationRecord.latestCheckEvidence
    rw [hformal, hauthorized]
  obtain ⟨original, horiginal, hstate⟩ := h.state evidence (hlatest ▸ hevidence) check hcheck
  refine ⟨original, horiginal, hstate.same, ?_, ?_, ?_⟩
  · rw [hdispositions]
    exact hstate.index
  · rw [hdispositions, hlast]
    exact hstate.start
  · rw [hdispositions]
    exact hstate.follows

theorem SequenceFit.restrictExpired (h : SequenceFit original? record) (now : Instant) :
    SequenceFit original? (restrictExpiredQualification record now) := by
  obtain ⟨_, _, _, hframe⟩ := restrictExpiredQualification_frame record now
  rw [hframe]
  exact h.congr rfl rfl rfl rfl

/-- A record whose latest check is an executed one follows the sequence up to it. -/
theorem SequenceState.executed {next : FormalCheckIdentity}
    (h : SequenceState original check record) (hordered : original.NodesInOrder)
    (hsame : SameFormalSequence next check) (hindex : next.index = check.index + 1)
    (hnext : nextFormalNode record check = some disposition.scheduledAt)
    (hdisposition : disposition.checkIndex = next.index) (hexecuted : disposition.status.executed)
    (hother : other.formalNodeDispositions = record.formalNodeDispositions ++ [disposition]) :
    SequenceState original next other where
  same := hsame.trans h.same
  index := by rw [hother, executedCount_snoc, if_pos hexecuted, hindex, h.index, Nat.add_assoc]
  start hnil := by simp [hother] at hnil
  follows := hother ▸ h.snoc hordered hnext (by rw [hdisposition, hindex, if_pos hexecuted])

/-- A record whose node was disposed of without a check follows the sequence up to it. -/
theorem SequenceFit.unexecuted {evidence : QualificationEvidence} (h : SequenceFit original? record)
    (hordered : ∀ original ∈ original?, original.NodesInOrder)
    (hevidence : record.latestCheckEvidence = some evidence)
    (hcheck : evidence.formalCheck = some check)
    (hnext : nextFormalNode record check = some disposition.scheduledAt)
    (hdisposition : disposition.checkIndex = check.index)
    (hunexecuted : disposition.status.executed = false)
    (hauthorized : other.authorizationEvidence = record.authorizationEvidence)
    (hformal : other.formalEvidence = record.formalEvidence)
    (hother : other.formalNodeDispositions = record.formalNodeDispositions ++ [disposition]) :
    SequenceFit original? other := by
  refine ⟨hformal ▸ h.checked, fun latest hlatest latestCheck hlatestCheck => ?_⟩
  have hsame : other.latestCheckEvidence = record.latestCheckEvidence := by
    unfold QualificationRecord.latestCheckEvidence
    rw [hformal, hauthorized]
  rw [hsame, hevidence] at hlatest
  cases hlatest
  rw [hcheck] at hlatestCheck
  cases hlatestCheck
  obtain ⟨original, horiginal, hstate⟩ := h.state evidence hevidence check hcheck
  refine ⟨original, horiginal, hstate.same, ?_, fun hnil => ?_, ?_⟩
  · rw [hother, executedCount_snoc, hunexecuted, hstate.index]
    rfl
  · simp [hother] at hnil
  · rw [hother]
    refine hstate.snoc (hordered original horiginal) hnext ?_
    rw [hdisposition, hunexecuted]
    rfl

/-- The evidence that a step granted an authority on. -/
def grantedEvidence (step : GovernanceStep) : Option QualificationEvidence :=
  match step.input.command with
  | .qualification command => if command.action = .grant then some command.evidence else none
  | _ => none

/-- The check that the authority of a lineage started with, if it started with one. -/
def authorizingCheck (steps : List GovernanceStep) : Option FormalCheckIdentity :=
  (steps.filterMap grantedEvidence).getLast? >>= (·.formalCheck)

theorem authorizingCheck_snoc (steps : List GovernanceStep) (step : GovernanceStep) :
    authorizingCheck (steps ++ [step]) =
      match grantedEvidence step with
      | some evidence => evidence.formalCheck
      | none => authorizingCheck steps := by
  unfold authorizingCheck
  rw [List.filterMap_append]
  cases hgranted : grantedEvidence step with
  | none => simp [hgranted]
  | some evidence => simp [hgranted]

/-- A change that starts no authority continues the sequence of the record. -/
theorem RecordChange.sequenceFit {command : QualificationCommand}
    {previous : Option QualificationRecord} (h : RecordChange context command previous record)
    (hgrant : command.action ≠ .grant)
    (hprevious : ∀ current ∈ previous, SequenceFit original? current)
    (hordered : ∀ original ∈ original?, original.NodesInOrder) : SequenceFit original? record := by
  cases h with
  | notObtained haction =>
    exact ⟨fun _ h => absurd h (Option.not_mem_none _), fun _ h => absurd h (Option.not_mem_none _)⟩
  | granted haction _ => exact absurd haction hgrant
  | @alerted previous _ _ =>
    exact ((hprevious previous rfl).restrictExpired context.now).congr rfl rfl rfl rfl
  | @suspended previous _ _ _ => exact (hprevious previous rfl).congr rfl rfl rfl rfl
  | @revoked previous _ _ _ => exact (hprevious previous rfl).congr rfl rfl rfl rfl
  | @restored previous _ _ _ => exact (hprevious previous rfl).congr rfl rfl rfl rfl
  | @closed previous _ _ _ _ _ _ _ _ _ _ => exact (hprevious previous rfl).congr rfl rfl rfl rfl
  | @requalified previous _ proof registered parts _ _ _ _ _ hparts hvalid =>
    obtain ⟨evidence, hevidence, horiginal, hcheck⟩ := requalificationParts_checks hparts
    unfold requalificationProofIsValid at hvalid
    have hcontinues : CheckContinuesSequence context command previous parts := by
      have hall := of_decide_eq_true hvalid
      obtain ⟨-, -, -, -, -, -, -, -, -, -, -, -, -, -, -, -, -, -, -, hcontinues⟩ := hall
      exact hcontinues
    obtain ⟨-, -, hsame, hindex, hnext, -⟩ := hcontinues
    refine ⟨fun latest hlatest => ?_, fun latest hlatest latestCheck hlatestCheck => ?_⟩
    · cases hlatest
      rw [hcheck]
      rfl
    · cases hlatest
      rw [hcheck] at hlatestCheck
      cases hlatestCheck
      obtain ⟨original, hmem, hstate⟩ :=
        (hprevious previous rfl).state evidence hevidence parts.originalCheck horiginal
      exact ⟨original, hmem,
        hstate.executed (hordered original hmem) hsame hindex hnext rfl rfl rfl⟩
  | @undecided previous originalCheck check _ hcheck _ hfits =>
    obtain ⟨-, -, evidence, hevidence, horiginal⟩ := checkable_inv hcheck
    obtain ⟨-, -, hindex, hnext, -⟩ := hfits
    obtain ⟨_, _, _, hframe⟩ := restrictExpiredQualification_frame previous context.now
    rw [hframe]
    exact (hprevious previous rfl).unexecuted hordered hevidence horiginal hnext hindex rfl rfl rfl
      rfl
  | @checked previous originalCheck check passed _ hcheck _ hfits =>
    obtain ⟨-, hproposed, evidence, hevidence, horiginal⟩ := checkable_inv hcheck
    obtain ⟨-, hsame, hindex, hnext, -⟩ := hfits
    obtain ⟨_, _, _, hframe⟩ := restrictExpiredQualification_frame previous context.now
    rw [hframe]
    refine ⟨fun latest hlatest => ?_, fun latest hlatest latestCheck hlatestCheck => ?_⟩
    · cases hlatest
      rw [hproposed]
      rfl
    · cases hlatest
      rw [hproposed] at hlatestCheck
      cases hlatestCheck
      obtain ⟨original, hmem, hstate⟩ :=
        (hprevious previous rfl).state evidence hevidence originalCheck horiginal
      refine ⟨original, hmem, hstate.executed (hordered original hmem) hsame hindex hnext rfl ?_
        rfl⟩
      cases passed <;> rfl
  | @notExecuted previous originalCheck check _ hcheck hfits =>
    obtain ⟨-, -, evidence, hevidence, horiginal⟩ := checkable_inv hcheck
    obtain ⟨-, -, hindex, hnext, -⟩ := hfits
    exact (hprevious previous rfl).unexecuted hordered hevidence horiginal hnext hindex rfl rfl rfl
      rfl

/-- What a step saves follows the sequence of the lineage. -/
theorem Saved.sequenceFit {step : GovernanceStep} {steps : List GovernanceStep}
    {previous : Option QualificationRecord}
    (h : Saved (contextOf step) step.input.command previous record)
    (hprevious : ∀ current ∈ previous, SequenceFit (authorizingCheck steps) current)
    (hordered : ∀ original ∈ authorizingCheck steps, original.NodesInOrder) :
    SequenceFit (authorizingCheck (steps ++ [step])) record := by
  rw [authorizingCheck_snoc]
  unfold grantedEvidence
  generalize step.input.command = command at h ⊢
  cases h with
  | @expired _ current _ h =>
    obtain ⟨-, -, -, rfl⟩ := expiredByUse_inv h
    exact ((hprevious current rfl).restrictExpired _).congr rfl rfl rfl rfl
  | @changed command _ _ h =>
    by_cases hgrant : command.action = .grant
    · simp only [if_pos hgrant]
      have hother : ∀ action, command.action = action → action ≠ .grant → False :=
        fun action hsame hne => hne (hsame.symm.trans hgrant)
      cases h with
      | granted _ _ =>
        refine ⟨fun _ h => absurd h (Option.not_mem_none _),
          fun evidence hevidence check hcheck => ?_⟩
        cases hevidence
        refine ⟨check, hcheck, ⟨rfl, rfl, rfl, rfl, rfl⟩, rfl, fun _ => ⟨rfl, rfl⟩,
          followsSequence_nil check⟩
      | notObtained haction => exact (hother _ haction (by decide)).elim
      | alerted haction _ => exact (hother _ haction (by decide)).elim
      | suspended haction _ _ => exact (hother _ haction (by decide)).elim
      | revoked haction _ _ => exact (hother _ haction (by decide)).elim
      | restored haction _ _ => exact (hother _ haction (by decide)).elim
      | requalified haction _ _ _ _ _ _ => exact (hother _ haction (by decide)).elim
      | undecided haction _ _ _ => exact (hother _ haction (by decide)).elim
      | checked haction _ _ _ => exact (hother _ haction (by decide)).elim
      | notExecuted haction _ _ => exact (hother _ haction (by decide)).elim
      | closed haction _ _ _ _ => exact (hother _ haction (by decide)).elim
    · simp only [if_neg hgrant]
      exact h.sequenceFit hgrant hprevious hordered

/-- Where every grant plans its nodes in order, the nodes of every record that follows from one
are disposed of in sequence, none skipped, and its checks are numbered by those executed. -/
theorem formalNodes_inSequence {run : List GovernanceStep} (hrun : GovernanceRun run)
    (hplans : ∀ step ∈ run, ∀ evidence ∈ grantedEvidence step, ∀ check ∈ evidence.formalCheck,
      check.NodesInOrder) :
    ∀ record ∈ savedRecords run, (∃ steps, Lineage run steps record) ∧
      ∀ steps, Lineage run steps record →
        (record.authorizationEvidence.bind (·.formalCheck)).isSome →
          ∃ original, authorizingCheck steps = some original ∧
            FollowsSequence original record.formalNodeDispositions := by
  intro record hrecord
  refine ⟨Lineage.exists_of_mem hrun hrecord, fun steps hsteps hauthorized => ?_⟩
  have hordered : ∀ steps ⊆ run, ∀ original ∈ authorizingCheck steps, original.NodesInOrder := by
    intro steps hsub original horiginal
    obtain ⟨evidence, hlast, hcheck⟩ := bind_eq_some.mp horiginal
    obtain ⟨step, hstep, hgranted⟩ := List.mem_filterMap.mp (List.mem_of_getLast? hlast)
    exact hplans step (hsub hstep) evidence hgranted original hcheck
  have hfit : SequenceFit (authorizingCheck steps) record := by
    refine hsteps.induct (P := fun steps record => SequenceFit (authorizingCheck steps) record)
      hrun ?_ ?_
    · intro step hstep record _ hchange
      rw [← List.nil_append [step]]
      refine hchange.sequenceFit (fun _ h => absurd h (Option.not_mem_none _)) ?_
      exact hordered [] (List.nil_subset _)
    · intro steps previous step hstep record hlineage hprevious _ hchange
      refine hchange.sequenceFit (fun current hcurrent => ?_) (hordered steps hlineage.subset)
      exact Option.some.inj hcurrent ▸ hprevious
  obtain ⟨check, hcheck⟩ := Option.isSome_iff_exists.mp hauthorized
  obtain ⟨authorization, hauthorization, hauthorizing⟩ := bind_eq_some.mp hcheck
  cases hformal : record.formalEvidence with
  | none =>
    have hlatest : record.latestCheckEvidence = some authorization := by
      unfold QualificationRecord.latestCheckEvidence
      rw [hformal, hauthorization]
      rfl
    obtain ⟨original, hmem, hstate⟩ := hfit.state authorization hlatest check hauthorizing
    exact ⟨original, hmem, hstate.follows⟩
  | some formal =>
    have hlatest : record.latestCheckEvidence = some formal := by
      unfold QualificationRecord.latestCheckEvidence
      rw [hformal]
      rfl
    obtain ⟨latest, hlatestCheck⟩ := Option.isSome_iff_exists.mp (hfit.checked formal hformal)
    obtain ⟨original, hmem, hstate⟩ := hfit.state formal hlatest latest hlatestCheck
    exact ⟨original, hmem, hstate.follows⟩

namespace SampleQualification

def sampleCheck (plannedNodes : List Instant) (scheduledAt : Instant) : FormalCheckIdentity where
  sequenceId := "sequence-1"
  index := 1
  registeredAt := day 0
  scheduledAt := scheduledAt
  plannedNodes := plannedNodes

/-- A grant on a check, and a record that a later node of its sequence was not executed. -/
def plannedGrant (plannedNodes : List Instant) (node : Instant) : List GovernanceInput :=
  [input "event-1" (command .grant none { evidence "evidence-1" .qualificationPass (day 0) with
      formalCheck := some (sampleCheck plannedNodes (day 0)) }),
    input "event-2" (command .recordFormalNode (some "event-1")
      { evidence "evidence-2" .formalNodeNotExecuted node with
        formalCheck := some (sampleCheck plannedNodes node) })]

/-- The sample grant with its nodes in order, and its first node. -/
def orderedGrant : List GovernanceInput := plannedGrant [day 2, day 3] (day 2)

/-- The nodes of the sample grant with nodes in order are disposed of in sequence. -/
theorem sample_inSequence : (savedRecords (runOf orderedGrant)).map
      (·.formalNodeDispositions.map (·.scheduledAt)) = [[], [day 2]] ∧
    ∀ record ∈ savedRecords (runOf orderedGrant), ∀ steps,
      Lineage (runOf orderedGrant) steps record →
      (record.authorizationEvidence.bind (·.formalCheck)).isSome →
        ∃ original, authorizingCheck steps = some original ∧
          FollowsSequence original record.formalNodeDispositions := by
  refine ⟨by decide +kernel, fun record hrecord => ?_⟩
  exact (formalNodes_inSequence (governanceRun_runOf orderedGrant) (by decide +kernel) record
    hrecord).2

def unorderedGrant : List GovernanceInput := plannedGrant [day 3, day 2] (day 3)

/-- A grant that lists its later node first skips the earlier one. -/
theorem sample_skipsNode : ∃ run, GovernanceRun run ∧ ∃ steps record, Lineage run steps record ∧
    (record.authorizationEvidence.bind (·.formalCheck)).isSome ∧
      ∃ original, authorizingCheck steps = some original ∧
        (∃ disposition ∈ record.formalNodeDispositions, ∃ node ∈ original.plannedNodes,
          original.scheduledAt < node ∧ node < disposition.scheduledAt ∧
            node ∉ record.formalNodeDispositions.map (·.scheduledAt)) ∧
        ¬FollowsSequence original record.formalNodeDispositions := by
  have hrun := governanceRun_runOf unorderedGrant
  have hsteps : ∃ a b, runOf unorderedGrant = [a, b] ∧ ∃ first record,
      savedRecord a = some first ∧ first.previousDecisionId = none ∧
        savedRecord b = some record ∧ record.previousDecisionId = some first.decisionId ∧
        authorizingCheck [a, b] = some (sampleCheck [day 3, day 2] (day 0)) ∧
        (record.authorizationEvidence.bind (·.formalCheck)).isSome ∧
        record.formalNodeDispositions.map (·.scheduledAt) = [day 3] :=
    ⟨_, _, rfl, _, _, rfl, rfl, rfl, rfl, rfl, rfl, rfl⟩
  obtain ⟨a, b, hsteps, first, record, hfirst, hroot, hsaved, hlink, hcheck, hauthorized, hnodes⟩ :=
    hsteps
  have ha : a ∈ runOf unorderedGrant := by simp [hsteps]
  have hb : b ∈ runOf unorderedGrant := by simp [hsteps]
  have hmissed : ∀ disposition ∈ record.formalNodeDispositions,
      disposition.scheduledAt = day 3 := by
    intro disposition hdisposition
    have hmem := List.mem_map_of_mem (f := (·.scheduledAt)) hdisposition
    rw [hnodes] at hmem
    exact List.mem_singleton.mp hmem
  have hsome : record.formalNodeDispositions ≠ [] := by
    intro hnil
    simp [hnil] at hnodes
  obtain ⟨disposition, hdisposition⟩ := List.exists_mem_of_ne_nil _ hsome
  refine ⟨_, hrun, [a] ++ [b], record, .next (.first ha hfirst hroot) hb hsaved hlink,
    hauthorized, _,
    hcheck, ⟨disposition, hdisposition, day 2, by decide, by decide, ?_, ?_⟩, fun hfollows => ?_⟩
  · rw [hmissed disposition hdisposition]
    decide
  · rw [hnodes]
    decide
  · have hlast : day 2 ≤ lastNode (sampleCheck [day 3, day 2] (day 0))
        record.formalNodeDispositions := by
      refine le_trans ?_ (hfollows.le_lastNode.2 disposition hdisposition)
      rw [hmissed disposition hdisposition]
      decide
    have hmem := hfollows.complete (day 2) (by decide) (by decide) hlast
    rw [hnodes] at hmem
    exact absurd hmem (by decide)

end SampleQualification

end StockProfiler.Qualification
