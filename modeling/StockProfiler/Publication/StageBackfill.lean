import StockProfiler.Core.Once
import StockProfiler.Publication.LedgerGrowth

/-!
# Backfilled stages

A committed event carries the stages of its business object, without the framework runs under
which they were recorded. The backfill records them under the run of the event, each once. It
gives back the history exactly when all of it belongs to that run and no stage occurs twice.
-/

namespace StockProfiler.Publication

variable {stage : StageResult} {row : StageRow}

/-- What a stage is looked up by. -/
def StageRow.identity (row : StageRow) : String × String × Option String × StageResult :=
  (row.businessObjectId, row.frameworkRunId, row.decisionEventId, row.stage)

/-- The framework run and the stage of a row. -/
def StageRow.occurrence (row : StageRow) : String × StageResult := (row.frameworkRunId, row.stage)

theorem StageRow.sameStage_iff {other : StageRow} :
    row.sameStage other = true ↔ row.identity = other.identity := by
  unfold sameStage identity
  rw [decide_eq_true_eq, Prod.mk.injEq, Prod.mk.injEq, Prod.mk.injEq]

namespace DecisionLedger

variable {ledger : DecisionLedger}

theorem isRecorded_iff :
    ledger.isRecorded row = true ↔ row.identity ∈ ledger.stages.map StageRow.identity := by
  unfold isRecorded
  rw [List.any_eq_true, List.mem_map]
  exact exists_congr fun other => and_congr_right fun _ => StageRow.sameStage_iff

/-- A stage that may not occur again is appended once. -/
theorem stages_recordStageResult_once (row : StageRow) :
    (ledger.recordStageResult row false).stages =
      addOnce StageRow.identity ledger.stages row := by
  unfold recordStageResult addOnce
  simp only [isRecorded_iff, and_true]
  split
  · rfl
  · rfl

theorem stages_recordAll_once (rows : List StageRow) :
    (ledger.recordAll (rows.map (·, false))).stages =
      addAllOnce StageRow.identity ledger.stages rows := by
  induction rows generalizing ledger with
  | nil => rfl
  | cons row rows ih =>
    have hfirst := ledger.stages_recordStageResult_once row
    rw [addAllOnce_cons, ← hfirst]
    exact ih

theorem stages_ensureEventStageResults (fact : DecisionEventFact) (clock : StageResult → Instant) :
    (ledger.ensureEventStageResults fact clock).stages =
      addAllOnce StageRow.identity ledger.stages (eventStageRows fact clock) :=
  stages_recordAll_once _

/-- Ledgers that differ in nothing but their stages are equal when these are. -/
theorem AddsStages.ext {later other : DecisionLedger} (h : ledger.AddsStages later)
    (h' : ledger.AddsStages other) (hstages : later.stages = other.stages) : later = other := by
  cases later
  cases other
  simp only [DecisionLedger.mk.injEq]
  exact ⟨h.mappings.trans h'.mappings.symm, h.events.trans h'.events.symm, hstages,
    h.reports.trans h'.reports.symm⟩

section EventRows

variable {commit : StageResult} (fact : DecisionEventFact) (clock : StageResult → Instant)

/-- The row of a stage that is not the last commit of its event. -/
def earlierStageRow (stage : StageResult) : StageRow :=
  stageRow fact (if stage.phase = .correction then some fact.decisionEventId else none) clock stage

/-- The row of the last commit of an event. -/
def commitStageRow (commit : StageResult) : StageRow :=
  stageRow fact (some fact.decisionEventId) clock commit

@[simp] theorem earlierStageRow_stage (stage : StageResult) :
    (earlierStageRow fact clock stage).stage = stage := rfl

theorem earlierStageRow_decisionEventId (h : stage.phase ≠ .correction) :
    (earlierStageRow fact clock stage).decisionEventId = none :=
  if_neg h

theorem earlierStageRow_decisionEventId_of_correction (h : stage.phase = .correction) :
    (earlierStageRow fact clock stage).decisionEventId = some fact.decisionEventId :=
  if_pos h

theorem latestBusinessCommit_concat (history : List StageResult)
    (h : commit.phase = .businessCommit) :
    latestBusinessCommit (history ++ [commit]) = some history.length := by
  unfold latestBusinessCommit
  rw [List.zipIdx_append, List.filter_append]
  simp only [List.zipIdx_cons, List.zipIdx_nil, List.filter_cons, h, decide_true, if_true,
    List.filter_nil, List.getLast?_concat, Option.map_some, Nat.zero_add]

variable {fact}

theorem eventStageRows_concat {history : List StageResult}
    (h : fact.stageResults = history ++ [commit]) (hphase : commit.phase = .businessCommit) :
    eventStageRows fact clock =
      history.map (earlierStageRow fact clock) ++ [commitStageRow fact clock commit] := by
  unfold eventStageRows
  rw [h, latestBusinessCommit_concat history hphase, List.zipIdx_append, List.map_append]
  congr 1
  · refine List.ext_getElem ?_ fun i hi hi' => ?_
    · rw [List.length_map, List.length_map, List.length_zipIdx]
    · rw [List.length_map] at hi'
      have hne : ¬ some i = some history.length := by
        rw [Option.some.injEq]
        omega
      simp only [List.getElem_map, List.getElem_zipIdx, Nat.zero_add, hne, or_false]
      rfl
  · simp only [List.zipIdx_cons, List.zipIdx_nil, List.map_cons, List.map_nil, Nat.zero_add,
      or_true, if_true]
    rfl

end EventRows

/-- The framework runs and stages of a business object, in the order of their rows. -/
def occurrences (ledger : DecisionLedger) (businessObjectId : String) :
    List (String × StageResult) :=
  (ledger.stages.filter (·.businessObjectId = businessObjectId)).map StageRow.occurrence

end DecisionLedger

open DecisionLedger

/-- Stages of a new business object, recorded under any runs before its event is committed, and
the event that carries what is read of them, and its own commit. -/
structure CommittedHistory where
  before : DecisionLedger
  recordings : List (StageRow × Bool)
  fact : DecisionEventFact
  commit : StageResult
  before_new : ∀ row ∈ before.stages, row.businessObjectId ≠ fact.case.businessObjectId
  recordings_object : ∀ recording ∈ recordings,
    recording.1.businessObjectId = fact.case.businessObjectId
  recordings_unbound : ∀ recording ∈ recordings, recording.1.decisionEventId = none
  commit_phase : commit.phase = .businessCommit
  fact_stages : fact.stageResults =
    (before.recordAll recordings).stageResults fact.case.businessObjectId ++ [commit]

namespace CommittedHistory

variable (h : CommittedHistory)

/-- The business object of the history. -/
abbrev businessObjectId : String := h.fact.case.businessObjectId

/-- The ledger once the stages are recorded. -/
def ledger : DecisionLedger := h.before.recordAll h.recordings

/-- The stages that are read before the commit. -/
def stages : List StageResult := h.ledger.stageResults h.businessObjectId

/-- The runs and stages of the history. -/
def lost : List (String × StageResult) := h.ledger.occurrences h.businessObjectId

/-- What a backfill of a committed event promises about the stages that were recorded before. -/
structure Faithful : Prop where
  /-- Only the commit and corrections are added, bound to the event, and no stage that is stored
  is stored under another run. -/
  adds : ∀ clock, ∃ added,
    (h.ledger.ensureEventStageResults h.fact clock).stages = h.ledger.stages ++ added ∧
    (∀ row ∈ added, row.decisionEventId = some h.fact.decisionEventId ∧
      (row.stage = h.commit ∨ row.stage.phase = .correction)) ∧
    ∀ row ∈ added, ∀ stored ∈ h.ledger.stages, stored.businessObjectId = row.businessObjectId →
      stored.stage = row.stage → stored.frameworkRunId = row.frameworkRunId
  /-- A second backfill changes nothing. -/
  idempotent : ∀ clock again,
    (h.ledger.ensureEventStageResults h.fact clock).ensureEventStageResults h.fact again =
      h.ledger.ensureEventStageResults h.fact clock
  /-- What a rollback lost of the history is given back, after what it kept. -/
  restores : ∀ clock kept rolledBack, h.recordings = kept ++ rolledBack →
    (∀ recording ∈ kept, recording.1.stage.phase ≠ .correction) →
    ((h.before.recordAll kept).ensureEventStageResults h.fact clock).occurrences
        h.businessObjectId =
      h.lost ++ [(h.fact.frameworkRunId, h.commit)]

/-- All stages were recorded under the run of the event, and none of them twice. -/
structure OnceInOwnRun : Prop where
  run : ∀ row ∈ h.ledger.stages, row.businessObjectId = h.businessObjectId →
    row.frameworkRunId = h.fact.frameworkRunId
  once : h.stages.Nodup

instance : Decidable h.OnceInOwnRun :=
  decidable_of_iff
    ((∀ row ∈ h.ledger.stages, row.businessObjectId = h.businessObjectId →
      row.frameworkRunId = h.fact.frameworkRunId) ∧ h.stages.Nodup)
    ⟨fun hboth => ⟨hboth.1, hboth.2⟩, fun hown => ⟨hown.run, hown.once⟩⟩

/-- What a part of the recordings appended. -/
structure Appended (kept : List (StageRow × Bool)) (own : List StageRow) : Prop where
  stages : (h.before.recordAll kept).stages = h.before.stages ++ own
  recorded : ∀ row ∈ own, row ∈ kept.map (·.1)
  object : ∀ row ∈ own, row.businessObjectId = h.businessObjectId
  unbound : ∀ row ∈ own, row.decisionEventId = none

section Backfill

variable {rolledBack : List (StageRow × Bool)} {kept : List (StageRow × Bool)}

variable {h} {own : List StageRow} (clock : StageResult → Instant)

theorem exists_appended (hkept : h.recordings = kept ++ rolledBack) :
    ∃ own, h.Appended kept own := by
  obtain ⟨own, hstages, hown⟩ := recordAll_stages h.before kept
  have hrecording : ∀ row ∈ own, ∃ recording ∈ h.recordings, recording.1 = row := by
    intro row hmem
    obtain ⟨recording, hrecording, rfl⟩ := List.mem_map.mp (hown row hmem)
    exact ⟨recording, hkept ▸ List.mem_append_left _ hrecording, rfl⟩
  refine ⟨own, hstages, hown, fun row hmem => ?_, fun row hmem => ?_⟩
  · obtain ⟨recording, hin, rfl⟩ := hrecording row hmem
    exact h.recordings_object recording hin
  · obtain ⟨recording, hin, rfl⟩ := hrecording row hmem
    exact h.recordings_unbound recording hin

theorem filter_object (hobject : ∀ row ∈ own, row.businessObjectId = h.businessObjectId) :
    (h.before.stages ++ own).filter (·.businessObjectId = h.businessObjectId) = own := by
  rw [List.filter_append, List.filter_eq_nil_iff.mpr, List.nil_append, List.filter_eq_self]
  · exact fun row hmem => decide_eq_true (hobject row hmem)
  · exact fun row hmem heq => h.before_new row hmem (of_decide_eq_true heq)

theorem Appended.stages_eq (hall : h.Appended h.recordings own) : h.stages = own.map (·.stage) := by
  have hledger : h.ledger.stages = h.before.stages ++ own := hall.stages
  unfold CommittedHistory.stages stageResults
  rw [hledger, filter_object hall.object]

theorem Appended.lost_eq (hall : h.Appended h.recordings own) :
    h.lost = own.map StageRow.occurrence := by
  have hledger : h.ledger.stages = h.before.stages ++ own := hall.stages
  unfold lost occurrences
  rw [hledger, filter_object hall.object]

theorem eventStageRows_eq : eventStageRows h.fact clock =
    h.stages.map (earlierStageRow h.fact clock) ++ [commitStageRow h.fact clock h.commit] :=
  eventStageRows_concat clock h.fact_stages h.commit_phase

theorem Appended.exists_rest (hsplit : h.recordings = kept ++ rolledBack)
    (hkept : h.Appended kept own) : ∃ rest, h.Appended h.recordings (own ++ rest) := by
  obtain ⟨all, hall⟩ := exists_appended (List.append_nil h.recordings).symm
  obtain ⟨rest, hrest, -⟩ := recordAll_stages (h.before.recordAll kept) rolledBack
  have hrecord : h.before.recordAll h.recordings =
      (h.before.recordAll kept).recordAll rolledBack := by
    rw [hsplit]
    exact List.foldl_append
  have heq := hall.stages
  rw [hrecord, hrest, hkept.stages, List.append_assoc] at heq
  obtain rfl := List.append_cancel_left heq
  exact ⟨rest, hall⟩

theorem mem_eventStageRows (hmem : row ∈ eventStageRows h.fact clock) :
    (∃ stage ∈ h.stages, row = earlierStageRow h.fact clock stage) ∨
      row = commitStageRow h.fact clock h.commit := by
  rw [eventStageRows_eq, List.mem_append, List.mem_map, List.mem_singleton] at hmem
  rcases hmem with ⟨stage, hstage, rfl⟩ | rfl
  · exact .inl ⟨stage, hstage, rfl⟩
  · exact .inr rfl

/-- The rows of an event belong to its object and its run. -/
theorem object_of_mem_eventStageRows (hmem : row ∈ eventStageRows h.fact clock) :
    row.businessObjectId = h.businessObjectId ∧ row.frameworkRunId = h.fact.frameworkRunId := by
  rcases mem_eventStageRows clock hmem with ⟨stage, -, rfl⟩ | rfl
  · exact ⟨rfl, rfl⟩
  · exact ⟨rfl, rfl⟩

/-- A stage that is stored under the run of the event is not stored again. -/
theorem Appended.taken (hkept : h.Appended kept own) (hmem : row ∈ own)
    (hrun : row.frameworkRunId = h.fact.frameworkRunId) (hphase : row.stage.phase ≠ .correction) :
    (earlierStageRow h.fact clock row.stage).identity ∈
      (h.before.recordAll kept).stages.map StageRow.identity := by
  rw [hkept.stages]
  refine List.mem_map.mpr ⟨row, List.mem_append_right _ hmem, ?_⟩
  unfold StageRow.identity
  rw [hkept.object row hmem, hrun, hkept.unbound row hmem,
    earlierStageRow_decisionEventId _ _ hphase]
  rfl

/-- The identities of the rows of an event do not depend on the clock. -/
theorem identity_eventStageRows (again : StageResult → Instant) :
    (eventStageRows h.fact again).map StageRow.identity =
      (eventStageRows h.fact clock).map StageRow.identity := by
  unfold eventStageRows
  rw [List.map_map, List.map_map]
  rfl

/-- Stages of different contents have rows of different identities. -/
theorem stage_of_identity {other : StageResult}
    (heq : (earlierStageRow h.fact clock stage).identity =
      (earlierStageRow h.fact clock other).identity) : stage = other := by
  unfold StageRow.identity at heq
  simp only [Prod.mk.injEq] at heq
  exact heq.2.2.2

theorem commit_identity_ne (stage : StageResult) :
    (earlierStageRow h.fact clock stage).identity ≠
      (commitStageRow h.fact clock h.commit).identity := by
  intro heq
  unfold StageRow.identity at heq
  simp only [Prod.mk.injEq, earlierStageRow_stage] at heq
  have hstage : stage = h.commit := heq.2.2.2
  have hphase : stage.phase ≠ .correction := by
    rw [hstage, h.commit_phase]
    decide
  have hbound := heq.2.2.1
  rw [earlierStageRow_decisionEventId _ _ hphase] at hbound
  exact Option.some_ne_none _ hbound.symm

theorem backfill_idempotent (ledger : DecisionLedger) (again : StageResult → Instant) :
    (ledger.ensureEventStageResults h.fact clock).ensureEventStageResults h.fact again =
      ledger.ensureEventStageResults h.fact clock := by
  have hfirst := ledger.addsStages_ensureEventStageResults h.fact clock
  have hsecond := (ledger.ensureEventStageResults h.fact
    clock).addsStages_ensureEventStageResults h.fact again
  refine (hfirst.trans hsecond).ext hfirst ?_
  rw [stages_ensureEventStageResults, stages_ensureEventStageResults]
  exact addAllOnce_idempotent (identity_eventStageRows clock again)

/-- A history of the run of the event gets the commit and its corrections only. -/
theorem OnceInOwnRun.adds (hown : h.OnceInOwnRun) : ∃ added,
    (h.ledger.ensureEventStageResults h.fact clock).stages = h.ledger.stages ++ added ∧
    (∀ row ∈ added, row.decisionEventId = some h.fact.decisionEventId ∧
      (row.stage = h.commit ∨ row.stage.phase = .correction)) ∧
    ∀ row ∈ added, ∀ stored ∈ h.ledger.stages, stored.businessObjectId = row.businessObjectId →
      stored.stage = row.stage → stored.frameworkRunId = row.frameworkRunId := by
  obtain ⟨own, hall⟩ := exists_appended (List.append_nil h.recordings).symm
  obtain ⟨added, heq, hsub, -, hnew⟩ :=
    exists_addAllOnce StageRow.identity h.ledger.stages (eventStageRows h.fact clock)
  rw [← stages_ensureEventStageResults] at heq
  refine ⟨added, heq, fun row hmem => ?_, fun row hmem stored hstored hobject _ => ?_⟩
  · rcases mem_eventStageRows clock (hsub.subset hmem) with ⟨stage, hstage, rfl⟩ | rfl
    · by_cases hphase : stage.phase = .correction
      · exact ⟨earlierStageRow_decisionEventId_of_correction _ _ hphase, .inr hphase⟩
      · rw [hall.stages_eq] at hstage
        obtain ⟨row, hrow, rfl⟩ := List.mem_map.mp hstage
        have hstored : row ∈ h.ledger.stages := by
          have hledger : h.ledger.stages = h.before.stages ++ own := hall.stages
          rw [hledger]
          exact List.mem_append_right _ hrow
        have hrun := hown.run row hstored (hall.object row hrow)
        exact absurd (hall.taken clock hrow hrun hphase) (hnew _ hmem)
    · exact ⟨rfl, .inl rfl⟩
  · obtain ⟨hrow, hrun⟩ := object_of_mem_eventStageRows clock (hsub.subset hmem)
    rw [hrun]
    exact hown.run stored hstored (hobject.trans hrow)

/-- The rows that a rollback lost of a history of the run of the event are all new. -/
theorem OnceInOwnRun.new {rest : List StageRow} (hown : h.OnceInOwnRun)
    (hkept : h.Appended kept own) (hall : h.Appended h.recordings (own ++ rest))
    (hmem : row ∈ (rest.map (·.stage)).map (earlierStageRow h.fact clock) ++
      [commitStageRow h.fact clock h.commit]) :
    row.identity ∉ (h.before.recordAll kept).stages.map StageRow.identity := by
  intro htaken
  obtain ⟨stored, hstored, heq⟩ := List.mem_map.mp htaken
  unfold StageRow.identity at heq
  simp only [Prod.mk.injEq] at heq
  obtain ⟨hobject, -, hevent, hstage⟩ := heq
  have hrow : row.businessObjectId = h.businessObjectId := by
    rcases List.mem_append.mp hmem with hmem | hmem
    · obtain ⟨stage, -, rfl⟩ := List.mem_map.mp hmem
      rfl
    · rw [List.mem_singleton.mp hmem]
      rfl
  rw [hkept.stages, List.mem_append] at hstored
  rcases hstored with hstored | hstored
  · exact h.before_new stored hstored (hobject.trans hrow)
  · rcases List.mem_append.mp hmem with hmem | hmem
    · obtain ⟨stage, hlost, rfl⟩ := List.mem_map.mp hmem
      have hnodup := hown.once
      rw [hall.stages_eq, List.map_append] at hnodup
      have hsame : stored.stage = stage := hstage
      have hboth : stage ∈ own.map (·.stage) := hsame ▸ List.mem_map_of_mem hstored
      exact List.disjoint_of_nodup_append hnodup hboth hlost
    · rw [List.mem_singleton.mp hmem, hkept.unbound stored hstored] at hevent
      exact Option.some_ne_none _ hevent.symm

/-- A backfill gives back what a rollback lost of a history of the run of the event. -/
theorem OnceInOwnRun.restores (hown : h.OnceInOwnRun) (hsplit : h.recordings = kept ++ rolledBack)
    (hphase : ∀ recording ∈ kept, recording.1.stage.phase ≠ .correction) :
    ((h.before.recordAll kept).ensureEventStageResults h.fact clock).occurrences
        h.businessObjectId =
      h.lost ++ [(h.fact.frameworkRunId, h.commit)] := by
  obtain ⟨own, hkept⟩ := exists_appended hsplit
  obtain ⟨rest, hall⟩ := hkept.exists_rest hsplit
  have hledger : h.ledger.stages = h.before.stages ++ (own ++ rest) := hall.stages
  have hrun : ∀ row ∈ own ++ rest, row.frameworkRunId = h.fact.frameworkRunId := by
    intro row hmem
    exact hown.run row (hledger ▸ List.mem_append_right _ hmem) (hall.object row hmem)
  have htaken : ∀ row ∈ (own.map (·.stage)).map (earlierStageRow h.fact clock),
      row.identity ∈ (h.before.recordAll kept).stages.map StageRow.identity := by
    intro row hmem
    obtain ⟨stage, hstage, rfl⟩ := List.mem_map.mp hmem
    obtain ⟨stored, hstored, rfl⟩ := List.mem_map.mp hstage
    obtain ⟨recording, hrecording, heq⟩ := List.mem_map.mp (hkept.recorded stored hstored)
    have hstoredPhase : stored.stage.phase ≠ .correction := heq ▸ hphase recording hrecording
    exact hkept.taken clock hstored (hrun stored (List.mem_append_left _ hstored)) hstoredPhase
  have hnodup : (((rest.map (·.stage)).map (earlierStageRow h.fact clock) ++
      [commitStageRow h.fact clock h.commit]).map StageRow.identity).Nodup := by
    have honce := hown.once
    rw [hall.stages_eq, List.map_append] at honce
    rw [List.map_append, List.map_map, List.nodup_append]
    refine ⟨honce.of_append_right.map fun stage other => stage_of_identity clock,
      List.nodup_singleton _, fun identity hmem other hother heq => ?_⟩
    obtain ⟨stage, -, rfl⟩ := List.mem_map.mp hmem
    rw [List.map_singleton, List.mem_singleton] at hother
    exact commit_identity_ne clock stage (heq.trans hother)
  have hrows : ((h.before.recordAll kept).ensureEventStageResults h.fact clock).stages =
      h.before.stages ++ (own ++ ((rest.map (·.stage)).map (earlierStageRow h.fact clock) ++
        [commitStageRow h.fact clock h.commit])) := by
    rw [stages_ensureEventStageResults, eventStageRows_eq, hall.stages_eq, List.map_append,
      List.map_append, List.append_assoc, addAllOnce_append, addAllOnce_of_forall_mem htaken,
      addAllOnce_eq_append hnodup fun row hmem => hown.new clock hkept hall hmem, hkept.stages,
      List.append_assoc]
  unfold occurrences
  rw [hrows, filter_object, hall.lost_eq]
  · rw [List.map_append, List.map_append, List.map_append, List.append_assoc, List.map_map,
      List.map_map]
    congr 2
    refine List.map_congr_left fun row hmem => ?_
    have hrowRun := hrun row (List.mem_append_right _ hmem)
    unfold StageRow.occurrence
    rw [hrowRun]
    rfl
  · intro row hmem
    rcases List.mem_append.mp hmem with hmem | hmem
    · exact hkept.object row hmem
    · rcases List.mem_append.mp hmem with hmem | hmem
      · obtain ⟨stage, -, rfl⟩ := List.mem_map.mp hmem
        rfl
      · rw [List.mem_singleton.mp hmem]
        rfl

/-- A history that is given back whole belongs to the run of the event, and repeats no stage. -/
theorem onceInOwnRun_of_restores
    (hrestores : (h.before.ensureEventStageResults h.fact clock).occurrences h.businessObjectId =
      h.lost ++ [(h.fact.frameworkRunId, h.commit)]) : h.OnceInOwnRun := by
  obtain ⟨own, hall⟩ := exists_appended (List.append_nil h.recordings).symm
  obtain ⟨added, heq, hsub, -⟩ :=
    exists_addAllOnce StageRow.identity h.before.stages (eventStageRows h.fact clock)
  have hobject : ∀ row ∈ added, row.businessObjectId = h.businessObjectId := fun row hmem =>
    (object_of_mem_eventStageRows clock (hsub.subset hmem)).1
  unfold occurrences at hrestores
  rw [stages_ensureEventStageResults, heq, filter_object hobject] at hrestores
  constructor
  case run =>
    intro row hmem hrow
    have hlost : row.occurrence ∈ h.lost :=
      List.mem_map_of_mem (List.mem_filter.mpr ⟨hmem, decide_eq_true hrow⟩)
    have hrestored : row.occurrence ∈ added.map StageRow.occurrence :=
      hrestores ▸ List.mem_append_left _ hlost
    obtain ⟨other, hother, hsame⟩ := List.mem_map.mp hrestored
    have hrun : other.frameworkRunId = row.frameworkRunId := congrArg Prod.fst hsame
    rw [← hrun]
    exact (object_of_mem_eventStageRows clock (hsub.subset hother)).2
  case once =>
    have hlength := congrArg List.length hrestores
    rw [List.length_map, List.length_append, hall.lost_eq, List.length_map] at hlength
    have hrows : added.length = (eventStageRows h.fact clock).length := by
      rw [hlength, eventStageRows_eq, List.length_append, List.length_map, hall.stages_eq,
        List.length_map]
      rfl
    have hnodup := (keys_nodup_of_length heq hrows).2
    rw [eventStageRows_eq, List.map_append, List.map_map] at hnodup
    exact hnodup.of_append_left.of_map _

/-- A backfill is faithful exactly when the whole history belongs to the run of its event and
repeats no stage. -/
theorem faithful_iff_onceInOwnRun (h : CommittedHistory) : h.Faithful ↔ h.OnceInOwnRun := by
  constructor
  case mp =>
    intro hfaithful
    exact onceInOwnRun_of_restores (fun _ => h.fact.committedAt)
      (hfaithful.restores _ [] h.recordings rfl fun _ hmem => absurd hmem List.not_mem_nil)
  case mpr =>
    intro hown
    exact ⟨fun clock => hown.adds clock, fun clock again => backfill_idempotent clock _ again,
      fun clock _ _ hsplit hphase => hown.restores clock hsplit hphase⟩

end Backfill

namespace SampleBackfill

/-- A framework run that succeeded, of the research or of its risk review. -/
def succeeded (phase : StagePhase) (h : .succeeded ∈ phase.statuses) : StageResult where
  phase
  status := .succeeded
  gateResults := [⟨"RUN_TERMINAL", .passed⟩]
  reasons := ["FRAMEWORK_RUN_SUCCEEDED"]
  status_mem := h
  candidateReminder_spec := fun hne => absurd rfl hne
  rawScorePayloads_spec := fun hne => absurd rfl hne
  availabilityFailure_spec := fun hne => absurd rfl hne

def case : FrozenDecisionCase where
  caseId := "case"
  businessObjectId := "object"
  frameworkRunId := "run"
  decisionEventId := "event"
  recoveryBusinessObjectIds := []
  knowledgeCutoff := 0
  reportGeneratedAt := 0
  versionBundle := ⟨"5", "1", "1", "sha", "agent", "1", "adapter", "1", "1", "1", "0.5.1", "url",
    "wheel", "commit"⟩

def recorded (run : String) (stage : StageResult) : StageRow × Bool :=
  (⟨"object", run, none, stage, 0⟩, false)

theorem risk_mem : StageStatus.succeeded ∈ StagePhase.riskFrameworkRun.statuses := by decide

theorem validation_mem : StageStatus.succeeded ∈ StagePhase.hostValidation.statuses := by decide

theorem framework_mem : StageStatus.succeeded ∈ StagePhase.frameworkRun.statuses := by decide

/-- A research run, the run of its risk review, and the validation of both. -/
def recordings : List (StageRow × Bool) :=
  [recorded "run" (succeeded .frameworkRun framework_mem),
    recorded "risk run" (succeeded .riskFrameworkRun risk_mem),
    recorded "run" (succeeded .hostValidation validation_mem)]

def fact : DecisionEventFact where
  decisionEventId := "event"
  businessObjectId := "object"
  frameworkRunId := "run"
  case := case
  result := ⟨"DONE", "done", [], none, none, false⟩
  committedAt := 1
  stageResults := recordings.map (·.1.stage) ++ [businessCommitSucceeded]
  generatedAt := 1

def history : CommittedHistory where
  before := {}
  recordings := recordings
  fact := fact
  commit := businessCommitSucceeded
  before_new := fun _ hmem => absurd hmem List.not_mem_nil
  recordings_object := by decide +kernel
  recordings_unbound := by decide +kernel
  commit_phase := rfl
  fact_stages := by decide +kernel

theorem history_spec : ¬ history.OnceInOwnRun := by
  decide +kernel

end SampleBackfill

/-- The stages of a risk review are stored again, under the run of the research. -/
theorem backfill_repeatsRiskStages : ¬ ∀ h : CommittedHistory, h.Faithful := by
  intro hall
  have hrestores := (hall SampleBackfill.history).restores (fun _ => 1) []
    SampleBackfill.recordings rfl fun _ hmem => absurd hmem List.not_mem_nil
  exact SampleBackfill.history_spec (onceInOwnRun_of_restores (fun _ => 1) hrestores)

end CommittedHistory

end StockProfiler.Publication
