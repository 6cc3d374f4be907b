import StockProfiler.Prospective.CycleChain
import StockProfiler.Prospective.Maturity

/-!
# Watermarks partition the batches

A batch is mature, pending or due and missing, and never two of these. Later cutoffs keep
what has matured, and they keep the windows where no period encloses two disjoint ones.
-/

namespace StockProfiler.Prospective.Maturity

open Evaluation

section Watermarks

variable {plan : PlanNode} {row : BatchPopulation} {cutoff cutoff' : Instant}

theorem periodEnd_le_iff : periodEnd plan row ≤ cutoff ↔
    plan.maturesAt ≤ cutoff ∧ ∀ entry ∈ knownMembers plan row, entry.2.maturesAt ≤ cutoff := by
  have hfold : ∀ (ends : List Instant) (least : Instant), ends.foldl max least ≤ cutoff ↔
      least ≤ cutoff ∧ ∀ t ∈ ends, t ≤ cutoff := by
    intro ends
    induction ends with
    | nil => simp
    | cons t ends ih =>
      intro least
      rw [List.foldl_cons, ih, max_le_iff, List.forall_mem_cons, and_assoc]
  rw [periodEnd, hfold, List.forall_mem_map]

theorem plan_lt_periodEnd : plan.maturesAt ≤ periodEnd plan row :=
  (periodEnd_le_iff.mp le_rfl).1

/-- The population of a batch is resolved, whenever it matures. -/
def Resolved (plan : PlanNode) (row : BatchPopulation) : Prop :=
  row.selectionAbstained = true ∨
  (admissions row ≠ [] ∧ row.standardEventId ≠ none ∧
    (admissions row).length = row.registrations.length ∧
    (knownMembers plan row).length = row.members.length ∧
    Portfolio.sameMembers (admissions row).keys (knownMembers plan row).keys = true ∧
    [EvaluationPopulation.selection, .probability] ⊆ row.registrations.map (·.population) ∧
    ∀ entry ∈ knownMembers plan row, entry.2.state.isResolved = true)

theorem knownMembers_of_abstained (h : row.selectionAbstained = true) :
    knownMembers plan row = [] := by
  rw [knownMembers, if_pos (.inl (row.abstention h).2.2)]

/-- A row is complete when it is resolved and its period is over. -/
theorem complete_iff : complete plan row cutoff = true ↔
    Resolved plan row ∧ periodEnd plan row ≤ cutoff := by
  rw [periodEnd_le_iff]
  unfold complete Resolved
  cases habstained : row.selectionAbstained with
  | true => simp [knownMembers_of_abstained habstained]
  | false =>
    simp only [Bool.false_eq_true, ↓reduceIte, false_or]
    split
    · rename_i h
      simp only [Bool.false_eq_true, false_iff]
      rintro ⟨⟨hne, hevent, hregistrations, hmembers, hsame, hpopulations, -⟩, hplan, -⟩
      rcases h with h | h | h | h | h | h | h
      · exact hne h
      · exact h.not_ge hplan
      · exact hevent h
      · exact h hregistrations
      · exact h hmembers
      · exact h hsame
      · exact h hpopulations
    · rename_i h
      simp only [not_or, not_not, not_lt] at h
      obtain ⟨hne, hplan, hevent, hregistrations, hmembers, hsame, hpopulations⟩ := h
      simp only [List.all_eq_true, decide_eq_true_eq]
      constructor
      · intro hall
        exact ⟨⟨hne, hevent, hregistrations, hmembers, hsame, hpopulations,
          fun entry hentry => (hall entry hentry).2⟩, hplan, fun entry hentry =>
            (hall entry hentry).1⟩
      · rintro ⟨⟨-, -, -, -, -, -, hresolved⟩, -, hmature⟩
        exact fun entry hentry => ⟨hmature entry hentry, hresolved entry hentry⟩

theorem complete_mono (h : cutoff ≤ cutoff') (hcomplete : complete plan row cutoff = true) :
    complete plan row cutoff' = true := by
  rw [complete_iff] at hcomplete ⊢
  exact ⟨hcomplete.1, hcomplete.2.trans h⟩

/-- In a resolved batch every registration has one member, which matches it. -/
theorem Resolved.member (h : Resolved plan row) (hne : row.registrations ≠ [])
    {admission : EvaluationRegistration} (hadmission : admission ∈ row.registrations) :
    ∃ member, row.members.filter (·.evaluationId = admission.evaluationId) = [member] ∧
      matches_ plan admission member = true ∧ member.state.isResolved = true := by
  obtain habstained | ⟨hadmissions, -, hregistrations, hmembers, hsame, -, hresolved⟩ := h
  · exact absurd (row.abstention habstained).1 hne
  have hadmitted : (row.registrations.map (·.evaluationId)).Nodup := Dict.ids_nodup hregistrations
  have hread : (admissions row).get? admission.evaluationId = some admission := by
    have hentries : admissions row = row.registrations.map fun item => (item.evaluationId, item) :=
      Dict.ofLast_of_nodup (by rw [List.map_map]; exact hadmitted)
    have hkeys : (admissions row).keys.Nodup := by
      rw [hentries, Dict.keys, List.map_map]
      exact hadmitted
    refine Dict.get?_of_mem hkeys ?_
    rw [hentries]
    exact List.mem_map.mpr ⟨admission, hadmission, rfl⟩
  have hknown : admission.evaluationId ∈ (knownMembers plan row).keys := by
    refine (Portfolio.sameMembers_iff.mp hsame _).mp ?_
    rw [Dict.mem_keys_iff, hread]
    rfl
  obtain ⟨entry, hentry, hid⟩ := List.mem_map.mp hknown
  have hstate := hresolved entry hentry
  unfold knownMembers at hentry
  split at hentry
  · exact absurd hentry List.not_mem_nil
  · rename_i hsound
    simp only [not_or, not_not] at hsound
    obtain ⟨houtcome, hmatches⟩ := List.mem_filter.mp hentry
    have hids : (row.members.map (·.evaluationId)).Nodup := Dict.ids_nodup hsound.2.2.1
    obtain ⟨member, hmember, rfl⟩ := List.mem_map.mp (Dict.mem_ofLast houtcome)
    refine ⟨member, ?_, ?_, hstate⟩
    · have hone := filter_eq_singleton EvaluationMember.evaluationId
        (List.pairwise_map.mp hids) hmember
      exact hid ▸ hone
    · rw [hid, hread] at hmatches
      exact hmatches

variable {registration : CycleRegistration} {policy : MaturityPolicy}
  {populations : List BatchPopulation} {watermark watermark' : CycleWatermark}
  {batches : List PlannedBatch}

/-- The batches are the populations, each with the node of its month. -/
theorem spec_of_plannedBatches (h : plannedBatches registration populations = .ok batches) :
    batches.map (·.2) = populations ∧
      ∀ batch ∈ batches, batch.1 ∈ registration.planNodes ∧
        batch.1.planMonth = batch.2.planMonth := by
  unfold plannedBatches at h
  dsimp only at h
  obtain ⟨_, hlength, h⟩ := bind_eq_ok.mp h
  have hmonths : (populations.map (·.planMonth)).Nodup := Dict.ids_nodup (require_eq_ok.mp hlength)
  have hrows : Dict.ofLast (populations.map fun row => (row.planMonth, row)) =
      populations.map fun row => (row.planMonth, row) :=
    Dict.ofLast_of_nodup (by rw [List.map_map]; exact hmonths)
  rw [hrows, mapM_eq_ok, List.forall₂_map_left_iff] at h
  have hspec : List.Forall₂ (fun row batch => batch.2 = row ∧ batch.1 ∈ registration.planNodes ∧
      batch.1.planMonth = row.planMonth) populations batches := by
    refine h.imp fun row batch hbatch => ?_
    rw [known_eq_ok] at hbatch
    obtain ⟨node, hnode, rfl⟩ := Option.map_eq_some_iff.mp hbatch
    obtain ⟨_, hmem, heq⟩ := List.mem_map.mp (Dict.mem_ofLast (Dict.mem_of_get? hnode))
    obtain ⟨hmonth, rfl⟩ := Prod.mk.inj heq
    exact ⟨rfl, hmem, hmonth⟩
  constructor
  · rw [map_eq_map_of_forall₂ (hspec.flip.imp fun _ _ h => h.1), List.map_id' populations]
  · intro batch hbatch
    obtain ⟨row, -, rfl, hnode, hmonth⟩ := forall₂_mem_right hspec hbatch
    exact ⟨hnode, hmonth⟩

theorem period_proper (batch : PlannedBatch) : (period batch).1 ≤ (period batch).2 := by
  obtain ⟨-, hentry, hdisclosure⟩ := batch.1.ordered
  exact (hentry.trans hdisclosure).le.trans plan_lt_periodEnd

/-- The batches that are complete at a cutoff. -/
def completed (batches : List PlannedBatch) (cutoff : Instant) : List PlannedBatch :=
  batches.filter fun batch => complete batch.1 batch.2 cutoff

/-- How many windows the complete batches have. -/
def windowsAt (batches : List PlannedBatch) (cutoff : Instant) : ℕ :=
  windowCount (((completed batches cutoff).map period).map toLex)

theorem spec_of_summarizeMaturity
    (h : summarizeMaturity registration policy populations cutoff = .ok watermark) :
    ∃ batches, plannedBatches registration populations = .ok batches ∧
      watermark.matureBatches = (completed batches cutoff).length ∧
      watermark.nonoverlappingWindows = windowsAt batches cutoff ∧
      watermark.highBandRecords = (batches.map (highBand policy cutoff)).sum ∧
      watermark.pendingBatches =
        (batches.filter fun batch => cutoff < periodEnd batch.1 batch.2).length ∧
      watermark.dueMissingBatches = (batches.filter fun batch =>
        ¬cutoff < periodEnd batch.1 batch.2 ∧ ¬complete batch.1 batch.2 cutoff).length := by
  unfold summarizeMaturity at h
  obtain ⟨batches, hbatches, h⟩ := bind_eq_ok.mp h
  obtain ⟨windows, hwindows, h⟩ := bind_eq_ok.mp h
  cases h
  rw [disjointWindows_eq (List.forall_mem_map.mpr fun batch _ => period_proper batch)] at hwindows
  cases hwindows
  exact ⟨batches, hbatches, rfl, rfl, rfl, rfl, rfl⟩

theorem exists_watermark (h : plannedBatches registration populations = .ok batches)
    (policy : MaturityPolicy) (cutoff : Instant) :
    ∃ watermark, summarizeMaturity registration policy populations cutoff = .ok watermark := by
  unfold summarizeMaturity
  exact ⟨_, bind_eq_ok.mpr ⟨batches, h, bind_eq_ok.mpr ⟨_, disjointWindows_eq
    (List.forall_mem_map.mpr fun batch _ => period_proper batch), rfl⟩⟩⟩

/-- Every batch is counted once: it is mature, its period is not over, or it is due and missing.
A mature batch with registrations has one resolved member for each, which matches it. -/
structure Partitions (registration : CycleRegistration) (populations : List BatchPopulation)
    (watermark : CycleWatermark) (mature pending missing : List PlannedBatch) : Prop where
  all : ((mature ++ pending ++ missing).map (·.2)).Perm populations
  planned : ∀ batch ∈ mature ++ pending ++ missing,
    batch.1 ∈ registration.planNodes ∧ batch.1.planMonth = batch.2.planMonth
  mature_eq : watermark.matureBatches = mature.length
  pending_eq : watermark.pendingBatches = pending.length
  missing_eq : watermark.dueMissingBatches = missing.length
  resolved : ∀ batch ∈ mature, batch.2.registrations ≠ [] →
    ∀ admission ∈ batch.2.registrations, ∃ member,
      batch.2.members.filter (·.evaluationId = admission.evaluationId) = [member] ∧
      matches_ batch.1 admission member = true ∧ member.state.isResolved = true

/-- A watermark splits the batches into mature, pending and missing ones. -/
theorem exists_partitions
    (h : summarizeMaturity registration policy populations cutoff = .ok watermark) :
    ∃ mature pending missing, Partitions registration populations watermark mature pending
      missing := by
  obtain ⟨batches, hbatches, hmature, -, -, hpending, hmissing⟩ := spec_of_summarizeMaturity h
  obtain ⟨hrows, hplanned⟩ := spec_of_plannedBatches hbatches
  have hpartition : (completed batches cutoff ++ (batches.filter fun batch =>
      cutoff < periodEnd batch.1 batch.2) ++ batches.filter fun batch =>
        ¬cutoff < periodEnd batch.1 batch.2 ∧ ¬complete batch.1 batch.2 cutoff).Perm batches := by
    have hover := List.filter_append_perm (fun batch : PlannedBatch =>
      decide (cutoff < periodEnd batch.1 batch.2)) batches
    have hcomplete := List.filter_append_perm (fun batch : PlannedBatch =>
      complete batch.1 batch.2 cutoff) (batches.filter fun batch =>
        !decide (cutoff < periodEnd batch.1 batch.2))
    rw [List.filter_filter, List.filter_filter] at hcomplete
    have hmature : (batches.filter fun batch => complete batch.1 batch.2 cutoff &&
        !decide (cutoff < periodEnd batch.1 batch.2)) = completed batches cutoff := by
      refine List.filter_congr fun batch _ => ?_
      cases hbatch : complete batch.1 batch.2 cutoff with
      | false => rfl
      | true => simp [not_lt.mpr (complete_iff.mp hbatch).2]
    have hmissing : (batches.filter fun batch => !complete batch.1 batch.2 cutoff &&
        !decide (cutoff < periodEnd batch.1 batch.2)) = batches.filter fun batch =>
          ¬cutoff < periodEnd batch.1 batch.2 ∧ ¬complete batch.1 batch.2 cutoff := by
      refine List.filter_congr fun batch _ => ?_
      by_cases hlt : cutoff < periodEnd batch.1 batch.2 <;> simp [hlt]
    rw [hmature, hmissing] at hcomplete
    refine List.Perm.trans ?_ ((hcomplete.append_left _).trans hover)
    rw [List.append_assoc]
    exact List.perm_append_comm_assoc _ _ _
  refine ⟨_, _, _, ?_, fun batch hbatch => hplanned batch (hpartition.mem_iff.mp hbatch), hmature,
    hpending, hmissing, ?_⟩
  · exact hrows ▸ hpartition.map (·.2)
  · intro batch hbatch hne admission hadmission
    have hcomplete := (List.mem_filter.mp hbatch).2
    exact (complete_iff.mp hcomplete).1.member hne hadmission

/-- No period of a complete batch encloses two disjoint periods of complete batches. -/
def NoEnclosure (registration : CycleRegistration) (populations : List BatchPopulation)
    (cutoff : Instant) : Prop :=
  ∀ batches, plannedBatches registration populations = .ok batches →
    ∀ a ∈ completed batches cutoff, ∀ b ∈ completed batches cutoff,
      ∀ c ∈ completed batches cutoff,
        ¬EnclosesTwo (toLex (period a)) (toLex (period b)) (toLex (period c))

variable (batches) in
theorem completed_perm (h : cutoff ≤ cutoff') : ∃ later,
    (completed batches cutoff').Perm (completed batches cutoff ++ later) ∧
      ∀ batch ∈ later, cutoff < (period batch).2 := by
  refine ⟨(completed batches cutoff').filter fun batch => !complete batch.1 batch.2 cutoff,
    ?_, ?_⟩
  · have hperm := (List.filter_append_perm (fun batch : PlannedBatch =>
      complete batch.1 batch.2 cutoff) (completed batches cutoff')).symm
    have hold : (completed batches cutoff').filter (fun batch =>
        complete batch.1 batch.2 cutoff) = completed batches cutoff := by
      rw [completed, List.filter_filter]
      refine List.filter_congr fun batch _ => ?_
      cases hbatch : complete batch.1 batch.2 cutoff with
      | false => rfl
      | true => rw [complete_mono h hbatch]; rfl
    rwa [hold] at hperm
  · intro batch hbatch
    obtain ⟨hmem, hnot⟩ := List.mem_filter.mp hbatch
    have hlater := complete_iff.mp (List.mem_filter.mp hmem).2
    refine not_le.mp fun hover => ?_
    have hcomplete := complete_iff.mpr ⟨hlater.1, hover⟩
    rw [hcomplete] at hnot
    exact Bool.noConfusion hnot

/-- Without enclosed windows a later cutoff counts no fewer of them. -/
theorem windowsAt_mono (h : cutoff ≤ cutoff')
    (hbatches : plannedBatches registration populations = .ok batches)
    (hfree : NoEnclosure registration populations cutoff') :
    windowsAt batches cutoff ≤ windowsAt batches cutoff' := by
  obtain ⟨later, hperm, hlater⟩ := completed_perm batches h
  have hmap := (hperm.map period).map toLex
  have hmem : ∀ batch ∈ completed batches cutoff ++ later, batch ∈ completed batches cutoff' :=
    fun batch => hperm.mem_iff.mpr
  rw [windowsAt, windowsAt, windowCount_perm hmap, List.map_append, List.map_append]
  have hpick : ∀ p ∈ ((completed batches cutoff).map period).map toLex ++
      (later.map period).map toLex, ∃ batch ∈ completed batches cutoff',
        toLex (period batch) = p := by
    rw [← List.map_append, ← List.map_append]
    intro p hp
    obtain ⟨_, hperiod, rfl⟩ := List.mem_map.mp hp
    obtain ⟨batch, hbatch, rfl⟩ := List.mem_map.mp hperiod
    exact ⟨batch, hmem batch hbatch, rfl⟩
  refine windowCount_le_append ?_ ?_ ?_
  · intro p hp
    obtain ⟨batch, -, rfl⟩ := hpick p hp
    exact period_proper batch
  · rw [List.forall_mem_map, List.forall_mem_map]
    intro old hold
    rw [List.forall_mem_map, List.forall_mem_map]
    intro new hnew
    have hend := (complete_iff.mp (List.mem_filter.mp hold).2).2
    exact (Prod.Lex.toLex_lt_toLex.mpr (.inl (hend.trans_lt (hlater new hnew)))).le
  · intro a ha b hb c hc
    obtain ⟨batchA, hbatchA, rfl⟩ := hpick a ha
    obtain ⟨batchB, hbatchB, rfl⟩ := hpick b hb
    obtain ⟨batchC, hbatchC, rfl⟩ := hpick c hc
    exact hfree batches hbatches batchA hbatchA batchB hbatchB batchC hbatchC

theorem highBand_mono (h : cutoff ≤ cutoff') (batch : PlannedBatch) :
    highBand policy cutoff batch ≤ highBand policy cutoff' batch := by
  refine List.Sublist.countP_le ?_
  refine List.monotone_filter_right _ fun member hmember => ?_
  simp only [decide_eq_true_eq] at hmember ⊢
  exact ⟨hmember.1, hmember.2.1, hmember.2.2.1.trans h, hmember.2.2.2⟩

/-- A later watermark has as many mature batches and high-band records, and as many windows
unless a period encloses two disjoint ones. -/
structure Advances (registration : CycleRegistration) (populations : List BatchPopulation)
    (cutoff : Instant) (watermark watermark' : CycleWatermark) : Prop where
  mature : watermark.matureBatches ≤ watermark'.matureBatches
  highBand : watermark.highBandRecords ≤ watermark'.highBandRecords
  windows : NoEnclosure registration populations cutoff →
    watermark.nonoverlappingWindows ≤ watermark'.nonoverlappingWindows

/-- A watermark partitions the batches, and later cutoffs have watermarks that advance. -/
theorem summarizeMaturity_partitions
    (h : summarizeMaturity registration policy populations cutoff = .ok watermark) :
    (∃ mature pending missing, Partitions registration populations watermark mature pending
      missing) ∧
    ∀ cutoff', cutoff ≤ cutoff' → ∃ watermark',
      summarizeMaturity registration policy populations cutoff' = .ok watermark' ∧
      Advances registration populations cutoff' watermark watermark' := by
  refine ⟨exists_partitions h, fun cutoff' hlater => ?_⟩
  obtain ⟨batches, hbatches, hmature, hwindows, hband, -, -⟩ := spec_of_summarizeMaturity h
  obtain ⟨watermark', h'⟩ := exists_watermark hbatches policy cutoff'
  obtain ⟨batches', hbatches', hmature', hwindows', hband', -, -⟩ := spec_of_summarizeMaturity h'
  obtain rfl : batches = batches' := Except.ok.inj (hbatches.symm.trans hbatches')
  refine ⟨watermark', h', ?_, ?_, ?_⟩
  · obtain ⟨later, hperm, -⟩ := completed_perm batches hlater
    rw [hmature, hmature', hperm.length_eq, List.length_append]
    exact Nat.le_add_right _ _
  · rw [hband, hband']
    exact List.sum_le_sum fun batch _ => highBand_mono hlater batch
  · intro hfree
    rw [hwindows, hwindows']
    exact windowsAt_mono hlater hbatches hfree

end Watermarks

namespace SampleMaturity

def midnight (year month day : ℤ) : Instant :=
  CivilDate.toDay ⟨year, month, day⟩ * microsecondsPerDay - shanghaiOffset

def node (planMonth : String) (next matures : Instant)
    (hordered : next - 1000000 < next + 54000000000 ∧
      next + 54000000000 < next + 7 * microsecondsPerDay ∧ next + 7 * microsecondsPerDay < matures)
    (hwindow : addCalendarMonths shanghaiOffset (next + 7 * microsecondsPerDay) 6 ≤ matures) :
    PlanNode where
  planMonth
  knowledgeCutoff := next - 1000000
  firstEntryAt := next + 54000000000
  disclosureAt := next + 7 * microsecondsPerDay
  maturesAt := matures
  ordered := hordered
  window := fun _ => hwindow

/-- Nine months, of which the first one matures after four years. -/
def registration : CycleRegistration where
  planNodes := [
    node "2040-01" (midnight 2040 2 1) (midnight 2044 2 1) (by decide) (by decide),
    node "2040-02" (midnight 2040 3 1) (midnight 2040 10 1) (by decide) (by decide),
    node "2040-03" (midnight 2040 4 1) (midnight 2040 11 1) (by decide) (by decide),
    node "2040-04" (midnight 2040 5 1) (midnight 2040 12 1) (by decide) (by decide),
    node "2040-05" (midnight 2040 6 1) (midnight 2041 1 1) (by decide) (by decide),
    node "2040-06" (midnight 2040 7 1) (midnight 2041 2 1) (by decide) (by decide),
    node "2040-07" (midnight 2040 8 1) (midnight 2041 3 1) (by decide) (by decide),
    node "2040-08" (midnight 2040 9 1) (midnight 2041 4 1) (by decide) (by decide),
    node "2040-09" (midnight 2040 10 1) (midnight 2041 5 1) (by decide) (by decide)]
  formalFloor := ⟨24, 4, 100⟩
  planMonths_nodup := by decide

def policy : MaturityPolicy := ⟨12, 2, 4 / 5⟩

def abstained (planMonth : String) : BatchPopulation where
  planMonth
  registrations := []
  members := []
  standardEventId := none
  selectionAbstained := true
  abstention := fun _ => ⟨rfl, rfl, rfl⟩

def admission (population : EvaluationPopulation) (frozenProbability : Option ℚ) :
    EvaluationRegistration where
  evaluationId := population.name
  population
  sourceEventId := "E"
  securityId := "S"
  frozenProbability
  registeredAt := midnight 2040 10 1 - 1000000
  admissionReason := "ORIGINAL_MEMBER"
  marketCalendarVersion := "1"

def member (admission : EvaluationRegistration) : EvaluationMember where
  evaluationId := admission.evaluationId
  population := admission.population
  sourceEventId := admission.sourceEventId
  frozenProbability := admission.frozenProbability
  securityId := admission.securityId
  maturesAt := midnight 2041 5 1
  state := .achieved

def admitted : List EvaluationRegistration :=
  [admission .selection none, admission .probability (some (17 / 20))]

def resolved : BatchPopulation where
  planMonth := "2040-09"
  registrations := admitted
  members := admitted.map member
  standardEventId := some "O"
  selectionAbstained := false
  abstention := fun h => Bool.noConfusion h

def populations : List BatchPopulation := [abstained "2040-01", abstained "2040-02", resolved]

def counts (cutoff : Instant) : Option (List ℕ) :=
  (summarizeMaturity registration policy populations cutoff).toOption.map fun watermark =>
    [watermark.matureBatches, watermark.pendingBatches, watermark.dueMissingBatches,
      watermark.highBandRecords, watermark.nonoverlappingWindows]

theorem counts_spec : counts (midnight 2042 1 1) = some [2, 1, 0, 1, 2] ∧
    counts (midnight 2045 1 1) = some [3, 0, 0, 1, 1] := by
  decide +kernel

theorem exists_of_counts {cutoff : Instant} {numbers : List ℕ} (h : counts cutoff = some numbers) :
    ∃ watermark, summarizeMaturity registration policy populations cutoff = .ok watermark ∧
      numbers = [watermark.matureBatches, watermark.pendingBatches, watermark.dueMissingBatches,
        watermark.highBandRecords, watermark.nonoverlappingWindows] := by
  unfold counts at h
  obtain ⟨watermark, hwatermark, heq⟩ := Option.map_eq_some_iff.mp h
  cases hsummary : summarizeMaturity registration policy populations cutoff with
  | error _ => rw [hsummary] at hwatermark; exact nomatch hwatermark
  | ok found =>
    rw [hsummary] at hwatermark
    obtain rfl : found = watermark := Option.some.inj hwatermark
    exact ⟨found, rfl, heq.symm⟩

/-- The three months are partitioned, and later watermarks advance. -/
theorem populations_partitioned : ∃ watermark,
    summarizeMaturity registration policy populations (midnight 2042 1 1) = .ok watermark ∧
    (∃ mature pending missing, Partitions registration populations watermark mature pending
      missing) ∧
    ∀ cutoff', midnight 2042 1 1 ≤ cutoff' → ∃ watermark',
      summarizeMaturity registration policy populations cutoff' = .ok watermark' ∧
      Advances registration populations cutoff' watermark watermark' := by
  obtain ⟨watermark, hwatermark, -⟩ := exists_of_counts counts_spec.1
  exact ⟨watermark, hwatermark, summarizeMaturity_partitions hwatermark⟩

/-- The month that matures last encloses the windows of two others, so one window is lost. -/
theorem windows_decrease : ∃ watermark watermark',
    summarizeMaturity registration policy populations (midnight 2042 1 1) = .ok watermark ∧
    summarizeMaturity registration policy populations (midnight 2045 1 1) = .ok watermark' ∧
    midnight 2042 1 1 ≤ midnight 2045 1 1 ∧
    watermark'.nonoverlappingWindows < watermark.nonoverlappingWindows := by
  obtain ⟨watermark, hwatermark, hcounts⟩ := exists_of_counts counts_spec.1
  obtain ⟨watermark', hwatermark', hcounts'⟩ := exists_of_counts counts_spec.2
  simp only [List.cons.injEq] at hcounts hcounts'
  refine ⟨watermark, watermark', hwatermark, hwatermark', by decide, ?_⟩
  omega

end SampleMaturity

end StockProfiler.Prospective.Maturity
