import StockProfiler.Evaluation.RevisionRuns

/-!
# Cumulative evidence

Over all revisions an identity denotes one content, what is retained stays or is explicitly
corrected, what was corrected does not come back, and the contexts of a selection are final.
-/

namespace StockProfiler.Evaluation

variable {new : Option HistoricalEvidence} {row : StandardObservation}

section Places

variable {month : HistoricalMonthInput} {slot : EvidenceSlot} {e : HistoricalEvidence}

theorem mem_placed {slot' : EvidenceSlot} :
    (slot, e) ∈ placed slot' new ↔ slot = slot' ∧ e ∈ new := by
  rw [placed, Option.mem_toList, Option.mem_def, Option.map_eq_some_iff]
  constructor
  · rintro ⟨found, hfound, heq⟩
    obtain ⟨rfl, rfl⟩ := Prod.mk.inj heq
    exact ⟨rfl, hfound⟩
  · rintro ⟨rfl, he⟩
    exact ⟨e, he, rfl⟩

theorem nodup_placed (slot : EvidenceSlot) (new : Option HistoricalEvidence) :
    ((placed slot new).map Prod.fst).Nodup := by
  cases new with
  | none => exact List.nodup_nil
  | some new => exact List.nodup_singleton slot

theorem mem_observedEvidence :
    (slot, e) ∈ observedEvidence row ↔
      (slot = .entry row.securityId ∧ e ∈ row.entry.map HistoricalEvidence.entry) ∨
      (slot = .terminal row.securityId ∧ e ∈ row.terminal.map HistoricalEvidence.terminal) := by
  rw [observedEvidence, List.mem_append, mem_placed, mem_placed]

theorem mem_pathEvidence {path : WealthPath} : (slot, e) ∈ path.evidence ↔
    ∃ mark ∈ path.marks, slot = .mark path.securityId mark.effectiveAt ∧ e = .terminal mark := by
  rw [WealthPath.evidence, List.mem_map]
  constructor
  · rintro ⟨mark, hmark, heq⟩
    obtain ⟨rfl, rfl⟩ := Prod.mk.inj heq
    exact ⟨mark, hmark, rfl, rfl⟩
  · rintro ⟨mark, hmark, rfl, rfl⟩
    exact ⟨mark, hmark, rfl⟩

theorem mem_contexts : (slot, e) ∈ month.contexts ↔
    (slot = .index ∧ e ∈ month.index.map HistoricalEvidence.index) ∨
    (slot = .factors ∧ e ∈ month.factors.map HistoricalEvidence.factors) ∨
    (slot = .futureIndex ∧ e ∈ month.futureIndex.map HistoricalEvidence.futureIndex) := by
  rw [HistoricalMonthInput.contexts, List.mem_append, List.mem_append, mem_placed, mem_placed,
    mem_placed]

theorem mem_evidence {write : PlacedEvidence} :
    write ∈ month.evidence ↔ (∃ row ∈ month.observations, write ∈ observedEvidence row) ∨
      (∃ path ∈ month.paths, write ∈ path.evidence) ∨ write ∈ month.contexts := by
  rw [HistoricalMonthInput.evidence, List.mem_append, List.mem_append, List.mem_flatMap,
    List.mem_flatMap]

theorem slot_of_observed (h : slot ∈ (observedEvidence row).map Prod.fst) :
    slot = .entry row.securityId ∨ slot = .terminal row.securityId := by
  obtain ⟨⟨_, e⟩, he, rfl⟩ := List.mem_map.mp h
  rcases mem_observedEvidence.mp he with ⟨heq, -⟩ | ⟨heq, -⟩
  · exact .inl heq
  · exact .inr heq

theorem slot_of_path {path : WealthPath} (h : slot ∈ path.evidence.map Prod.fst) :
    ∃ session, slot = .mark path.securityId session := by
  obtain ⟨⟨_, e⟩, he, rfl⟩ := List.mem_map.mp h
  obtain ⟨mark, -, heq, -⟩ := mem_pathEvidence.mp he
  exact ⟨_, heq⟩

theorem slot_of_contexts (h : slot ∈ month.contexts.map Prod.fst) :
    slot = .index ∨ slot = .factors ∨ slot = .futureIndex := by
  obtain ⟨⟨_, e⟩, he, rfl⟩ := List.mem_map.mp h
  rcases mem_contexts.mp he with ⟨heq, -⟩ | ⟨heq, -⟩ | ⟨heq, -⟩
  · exact .inl heq
  · exact .inr (.inl heq)
  · exact .inr (.inr heq)

theorem nodup_observed {rows : List StandardObservation} (hrows : (rows.map (·.securityId)).Nodup) :
    ((rows.flatMap observedEvidence).map Prod.fst).Nodup := by
  rw [List.map_flatMap]
  refine List.nodup_flatMap.mpr ⟨fun row _ => ?_, ?_⟩
  · rw [observedEvidence, List.map_append, List.nodup_append']
    refine ⟨nodup_placed _ _, nodup_placed _ _, ?_⟩
    intro slot hentry hterminal
    obtain ⟨⟨_, e⟩, he, rfl⟩ := List.mem_map.mp hentry
    obtain ⟨⟨_, e'⟩, he', heq⟩ := List.mem_map.mp hterminal
    have hslot := (mem_placed.mp he').1.symm.trans (heq.trans (mem_placed.mp he).1)
    cases hslot
  · refine (List.pairwise_map.mp hrows).imp fun {row row'} hne slot hrow hrow' => hne ?_
    rcases slot_of_observed hrow with rfl | rfl
    · rcases slot_of_observed hrow' with heq | heq
      · exact EvidenceSlot.entry.inj heq
      · cases heq
    · rcases slot_of_observed hrow' with heq | heq
      · cases heq
      · exact EvidenceSlot.terminal.inj heq

theorem nodup_paths {paths : List WealthPath} (hpaths : (paths.map (·.securityId)).Nodup)
    (hmarks : ∀ path ∈ paths, (path.marks.map (·.effectiveAt)).Nodup) :
    ((paths.flatMap (·.evidence)).map Prod.fst).Nodup := by
  rw [List.map_flatMap]
  refine List.nodup_flatMap.mpr ⟨fun path hpath => ?_, ?_⟩
  · rw [WealthPath.evidence, List.map_map]
    refine (List.nodup_map_iff_inj_on (hmarks path hpath).of_map).mpr ?_
    intro mark hmark mark' hmark' heq
    exact List.inj_on_of_nodup_map (hmarks path hpath) hmark hmark' (EvidenceSlot.mark.inj heq).2
  · refine (List.pairwise_map.mp hpaths).imp fun {path path'} hne slot hpath hpath' => hne ?_
    obtain ⟨session, rfl⟩ := slot_of_path hpath
    obtain ⟨session', heq⟩ := slot_of_path hpath'
    exact (EvidenceSlot.mark.inj heq).1

theorem nodup_contexts (month : HistoricalMonthInput) : (month.contexts.map Prod.fst).Nodup := by
  rw [HistoricalMonthInput.contexts]
  cases month.index <;> cases month.factors <;> cases month.futureIndex <;> simp [placed]

theorem nodup_evidence (hobservations : (month.observations.map (·.securityId)).Nodup)
    (hpaths : (month.paths.map (·.securityId)).Nodup)
    (hmarks : ∀ path ∈ month.paths, (path.marks.map (·.effectiveAt)).Nodup) :
    (month.evidence.map Prod.fst).Nodup := by
  rw [HistoricalMonthInput.evidence, List.map_append, List.map_append, List.nodup_append',
    List.nodup_append']
  refine ⟨nodup_observed hobservations, ⟨nodup_paths hpaths hmarks, nodup_contexts month, ?_⟩, ?_⟩
  · rw [List.map_flatMap]
    intro slot hpath hcontext
    obtain ⟨path, -, hpath⟩ := List.mem_flatMap.mp hpath
    obtain ⟨session, rfl⟩ := slot_of_path hpath
    rcases slot_of_contexts hcontext with heq | heq | heq <;> cases heq
  · rw [List.map_flatMap, List.map_flatMap]
    intro slot hrow hother
    obtain ⟨row, -, hrow⟩ := List.mem_flatMap.mp hrow
    rcases List.mem_append.mp hother with hpath | hcontext
    · obtain ⟨path, -, hpath⟩ := List.mem_flatMap.mp hpath
      obtain ⟨session, rfl⟩ := slot_of_path hpath
      rcases slot_of_observed hrow with heq | heq <;> cases heq
    · rcases slot_of_observed hrow with rfl | rfl <;>
        rcases slot_of_contexts hcontext with heq | heq | heq <;> cases heq

end Places

section Month

variable {cutoff : Instant} {state state' : RetainedMonths} {incoming : HistoricalMonthInput}
  {key : MonthSlot} {e : HistoricalEvidence}

/-- The places in which a month brings evidence. -/
abbrev HistoricalMonthInput.writes (month : HistoricalMonthInput) :
    List (MonthSlot × HistoricalEvidence) := monthWrites month.planMonth month.evidence

theorem MonthMerge.marks_nodup {observed : Dict String StandardObservation × EvidenceTable}
    {pathed : Dict String WealthPath × EvidenceTable}
    (h : MonthMerge cutoff state incoming observed pathed state') :
    ∀ path ∈ incoming.paths, (path.marks.map (·.effectiveAt)).Nodup := by
  intro path hpath
  obtain ⟨before, after, hstep⟩ := step_of_foldlM h.paths hpath
  unfold mergePath at hstep
  obtain ⟨_, hmarks, -⟩ := bind_eq_ok.mp hstep
  exact require_eq_ok.mp hmarks

section

variable (h : mergeMonth cutoff state incoming = .ok state')
include h

theorem nodup_writes : (incoming.writes.map Prod.fst).Nodup := by
  obtain ⟨observed, pathed, hmerge⟩ := merge_of_mergeMonth h
  have hnodup := nodup_evidence hmerge.observations_nodup hmerge.paths_nodup hmerge.marks_nodup
  rw [HistoricalMonthInput.writes, monthWrites, List.map_map]
  refine (List.nodup_map_iff_inj_on hnodup.of_map).mpr fun write hwrite other hother heq => ?_
  exact List.inj_on_of_nodup_map hnodup hwrite hother (Prod.mk.inj heq).2

theorem trace_of_mergeMonth :
    VersionTrace evidenceVersions incoming.writes state.store state'.store := by
  obtain ⟨observed, pathed, hmerge⟩ := merge_of_mergeMonth h
  exact hmerge.trace

theorem slots_of_writes (hwrite : (key, e) ∈ incoming.writes) : state'.store.slots key = some e :=
  (trace_of_mergeMonth h).slots_of_mem (nodup_writes h) hwrite

/-- What is in a place stays there or is corrected by what the month brings. -/
theorem slots_after_month (he : state.store.slots key = some e) : state'.store.slots key = some e ∨
      ∃ e', (key, e') ∈ incoming.writes ∧ state'.store.slots key = some e' ∧ Corrects e e' :=
  (trace_of_mergeMonth h).slots_some (nodup_writes h) he

end

/-- The index and the factors of a month. -/
def IsContext (slot : EvidenceSlot) : Prop := slot = .index ∨ slot = .factors

/-- What a month brings for a context is its own context. -/
theorem context_of_evidence {slot : EvidenceSlot} (h : (slot, e) ∈ incoming.evidence)
    (hslot : IsContext slot) :
    (slot = .index ∧ e ∈ incoming.index.map HistoricalEvidence.index) ∨
      (slot = .factors ∧ e ∈ incoming.factors.map HistoricalEvidence.factors) := by
  rcases mem_evidence.mp h with ⟨row, -, hrow⟩ | ⟨path, -, hpath⟩ | hcontext
  · rcases mem_observedEvidence.mp hrow with ⟨rfl, -⟩ | ⟨rfl, -⟩ <;>
      rcases hslot with heq | heq <;> exact absurd heq nofun
  · obtain ⟨mark, -, rfl, -⟩ := mem_pathEvidence.mp hpath
    rcases hslot with heq | heq <;> exact absurd heq nofun
  · rcases mem_contexts.mp hcontext with hindex | hfactors | ⟨rfl, -⟩
    · exact .inl hindex
    · exact .inr hfactors
    · rcases hslot with heq | heq <;> exact absurd heq nofun

theorem exists_month_of_slot {retained : Dict String HistoricalMonthInput} {planMonth : String}
    {slot : EvidenceSlot} (h : slotOf retained planMonth slot = some e) :
    ∃ month ∈ retained.get? planMonth, month.slot slot = some e := by
  unfold slotOf at h
  cases hmonth : retained.get? planMonth with
  | none =>
    rw [hmonth] at h
    exact absurd h nofun
  | some month =>
    rw [hmonth] at h
    exact ⟨month, rfl, h⟩

theorem context_after_month (h : mergeMonth cutoff state incoming = .ok state')
    (hslot : IsContext key.2) (he : state.store.slots key = some e) :
    state'.store.slots key = some e := by
  rcases slots_after_month h he with hkept | ⟨e', hwrite, he', -⟩
  · exact hkept
  · obtain ⟨observed, pathed, hmerge⟩ := merge_of_mergeMonth h
    obtain ⟨⟨slot, new⟩, hevidence, heq⟩ := List.mem_map.mp hwrite
    obtain ⟨rfl, rfl⟩ := Prod.mk.inj heq
    obtain ⟨month, hmonth, hold⟩ := exists_month_of_slot he
    obtain ⟨hindex, hfactors⟩ := hmerge.context month hmonth
    have hsame : new = e := by
      rcases context_of_evidence hevidence hslot with ⟨rfl, hnew⟩ | ⟨rfl, hnew⟩
      · obtain ⟨a, ha, rfl⟩ := Option.mem_map.mp hnew
        obtain ⟨b, hb, rfl⟩ := Option.map_eq_some_iff.mp hold
        rw [hindex a ha b hb]
      · obtain ⟨a, ha, rfl⟩ := Option.mem_map.mp hnew
        obtain ⟨b, hb, rfl⟩ := Option.map_eq_some_iff.mp hold
        rw [hfactors a ha b hb]
    exact hsame ▸ he'

end Month

section Again

variable {e : HistoricalEvidence} {months : List HistoricalMonthInput} {cutoff : Instant}
  {state state' : RetainedMonths} {incoming : HistoricalMonthInput}

/-- Evidence that is where it is brought to, and known by its identity, changes nothing. -/
theorem validateSlot_again {old : Option HistoricalEvidence} {byId : EvidenceTable}
    (hold : ∀ e ∈ new, old = some e)
    (hknown : ∀ e ∈ new, byId.get? e.fact.evidenceId = some e ∧ e.fact.availableAt ≤ cutoff) :
    validateSlot cutoff new old byId = .ok byId := by
  cases new with
  | none => rfl
  | some e =>
    obtain ⟨hget, havailable⟩ := hknown e rfl
    refine validate_of_validated ⟨fun found hfound => ?_, havailable, fun hnone => ?_,
      fun found hfound => ?_, (Dict.set_of_get?_eq_some hget).symm⟩
    · exact (Option.some.inj (hget.symm.trans hfound)).symm
    · exact absurd (hnone.symm.trans (hold e rfl)) nofun
    · exact .inl (Option.some.inj ((hold e rfl).symm.trans hfound))

theorem StandardObservation.mergedWith_again (row : StandardObservation)
    (prior : Option StandardObservation) :
    row.mergedWith (some (row.mergedWith prior)) = row.mergedWith prior := by
  unfold StandardObservation.mergedWith
  cases row.entry <;> cases row.terminal <;> rfl

theorem get?_mergedMarks {path : WealthPath} (hmarks : (path.marks.map (·.effectiveAt)).Nodup)
    (prior : Option WealthPath) {mark : TerminalEvidence} (hmark : mark ∈ path.marks) :
    (marksOf (path.mergedWith prior)).get? mark.effectiveAt = some mark := by
  have hfiled := filed_newMarks prior path.marks
  rw [WealthPath.mergedWith, get?_marksOf_sortedMarks hfiled]
  exact Dict.get?_refile_of_mem hmarks hmark

theorem sortedMarks_marksOf {marks : Dict Instant TerminalEvidence}
    (hmarks : marks.Filed (·.effectiveAt)) (securityId : String) :
    sortedMarks (marksOf ⟨securityId, sortedMarks marks⟩) = sortedMarks marks := by
  have hget := get?_marksOf_sortedMarks hmarks securityId
  have hkeys : sortedSet (marksOf ⟨securityId, sortedMarks marks⟩).keys = sortedSet marks.keys := by
    refine sortedSet_congr fun session => ?_
    rw [Dict.mem_keys_iff, Dict.mem_keys_iff, hget]
  unfold sortedMarks at hkeys hget ⊢
  rw [hkeys]
  exact List.filterMap_congr fun session _ => hget session

theorem HistoricalMonthInput.merged_again (previous : Option HistoricalMonthInput) :
    incoming.mergedWith (some (incoming.merged previous))
        (newObservations previous incoming.observations) (newPaths previous incoming.paths) =
      incoming.merged previous := by
  unfold HistoricalMonthInput.merged HistoricalMonthInput.mergedWith
  dsimp only [Option.bind_some]
  congr 1
  · split <;> rfl
  · cases incoming.index <;> rfl
  · cases incoming.factors <;> rfl
  · cases incoming.futureIndex <;> rfl

theorem observationsById_merged (previous : Option HistoricalMonthInput) :
    (incoming.merged previous).observationsById =
      newObservations previous incoming.observations :=
  (filed_newObservations previous incoming.observations).ofLast_values

theorem pathsById_merged (previous : Option HistoricalMonthInput) :
    (incoming.merged previous).pathsById = newPaths previous incoming.paths :=
  (filed_newPaths previous incoming.paths).ofLast_values

/-- A month that has been merged, with nothing of its own changed since. -/
structure Absorbed (cutoff : Instant) (incoming : HistoricalMonthInput)
    (state : RetainedMonths) : Prop where
  month : ∃ previous, state.retained.get? incoming.planMonth = some (incoming.merged previous)
  observations_nodup : (incoming.observations.map (·.securityId)).Nodup
  paths_nodup : (incoming.paths.map (·.securityId)).Nodup
  marks_nodup : ∀ path ∈ incoming.paths, (path.marks.map (·.effectiveAt)).Nodup
  known : ∀ write ∈ incoming.evidence,
    state.evidenceById.get? write.2.fact.evidenceId = some write.2
  available : ∀ write ∈ incoming.evidence, write.2.fact.availableAt ≤ cutoff

/-- A fold whose steps change nothing changes nothing. -/
theorem foldlM_fixed {ε : Type*} {α σ : Type} {f : σ → α → Except ε σ} {s : σ} {items : List α}
    (h : ∀ a ∈ items, f s a = .ok s) : items.foldlM f s = .ok s := by
  induction items with
  | nil => rfl
  | cons a items ih =>
    rw [List.forall_mem_cons] at h
    rw [List.foldlM_cons, h.1]
    exact ih h.2

variable {previous : Option HistoricalMonthInput}

section

variable (h : Absorbed cutoff incoming state)
include h

theorem Absorbed.knownAt {slot : EvidenceSlot} (he : (slot, e) ∈ incoming.evidence) :
    state.evidenceById.get? e.fact.evidenceId = some e ∧ e.fact.availableAt ≤ cutoff :=
  ⟨h.known _ he, h.available _ he⟩

/-- The observations of a merged month change nothing, -/
theorem Absorbed.observation (hrow : row ∈ incoming.observations) :
    mergeStandardObservation cutoff
        (newObservations previous incoming.observations, state.evidenceById) row =
      .ok (newObservations previous incoming.observations, state.evidenceById) := by
  obtain ⟨prior, hprior⟩ : ∃ prior, (newObservations previous incoming.observations).get?
      row.securityId = some (row.mergedWith prior) :=
    ⟨_, Dict.get?_refile_of_mem h.observations_nodup hrow⟩
  have hknown : ∀ {slot e}, (slot, e) ∈ observedEvidence row →
      state.evidenceById.get? e.fact.evidenceId = some e ∧ e.fact.availableAt ≤ cutoff :=
    fun he => h.knownAt (mem_evidence.mpr (.inl ⟨row, hrow, he⟩))
  unfold mergeStandardObservation
  dsimp only
  rw [hprior]
  refine bind_eq_ok.mpr ⟨state.evidenceById, validateSlot_again (fun e he => ?_) (fun e he =>
    hknown (mem_observedEvidence.mpr (.inl ⟨rfl, he⟩))), bind_eq_ok.mpr ⟨state.evidenceById,
    validateSlot_again (fun e he => ?_) (fun e he =>
      hknown (mem_observedEvidence.mpr (.inr ⟨rfl, he⟩))), ?_⟩⟩
  · obtain ⟨entry, hentry, rfl⟩ := Option.mem_map.mp he
    rw [Option.bind_some, StandardObservation.mergedWith, Option.mem_def.mp hentry]
    rfl
  · obtain ⟨terminal, hterminal, rfl⟩ := Option.mem_map.mp he
    rw [Option.bind_some, StandardObservation.mergedWith, Option.mem_def.mp hterminal]
    rfl
  · rw [StandardObservation.mergedWith_again, Dict.set_of_get?_eq_some hprior]
    rfl

theorem Absorbed.path {path : WealthPath} (hpath : path ∈ incoming.paths) :
    mergePath cutoff (newPaths previous incoming.paths, state.evidenceById) path =
      .ok (newPaths previous incoming.paths, state.evidenceById) := by
  obtain ⟨prior, hprior⟩ : ∃ prior, (newPaths previous incoming.paths).get? path.securityId =
      some (path.mergedWith prior) := ⟨_, Dict.get?_refile_of_mem h.paths_nodup hpath⟩
  have hmarks := h.marks_nodup path hpath
  unfold mergePath
  dsimp only
  rw [hprior, Option.elim_some]
  refine bind_eq_ok.mpr ⟨(), require_eq_ok.mpr hmarks, bind_eq_ok.mpr
    ⟨(marksOf (path.mergedWith prior), state.evidenceById), foldlM_fixed fun mark hmark => ?_, ?_⟩⟩
  · obtain ⟨hget, havailable⟩ := h.knownAt (mem_evidence.mpr
      (.inr (.inl ⟨path, hpath, mem_pathEvidence.mpr ⟨mark, hmark, rfl, rfl⟩⟩)))
    have hmark' := get?_mergedMarks hmarks prior hmark
    have hvalidate : validate cutoff (.terminal mark)
        (((marksOf (path.mergedWith prior)).get? mark.effectiveAt).map .terminal)
        state.evidenceById = .ok state.evidenceById := by
      rw [hmark']
      refine validate_of_validated ⟨fun found hfound => ?_, havailable, nofun, fun e he => ?_,
        (Dict.set_of_get?_eq_some hget).symm⟩
      · exact (Option.some.inj (hget.symm.trans hfound)).symm
      · exact .inl (Option.some.inj he)
    unfold mergeMark
    refine bind_eq_ok.mpr ⟨state.evidenceById, hvalidate, ?_⟩
    rw [Dict.set_of_get?_eq_some hmark']
    rfl
  · have hsorted := sortedMarks_marksOf (filed_newMarks prior path.marks) path.securityId
    have hpath' : WealthPath.mk path.securityId (sortedMarks (marksOf (path.mergedWith prior))) =
        path.mergedWith prior := congrArg (WealthPath.mk path.securityId) hsorted
    dsimp only
    rw [hpath', Dict.set_of_get?_eq_some hprior]
    rfl

theorem Absorbed.contexts :
    mergeContexts cutoff (some (incoming.merged previous)) incoming state.evidenceById =
      .ok state.evidenceById := by
  have hknown : ∀ {slot e}, (slot, e) ∈ incoming.contexts →
      state.evidenceById.get? e.fact.evidenceId = some e ∧ e.fact.availableAt ≤ cutoff :=
    fun he => h.knownAt (mem_evidence.mpr (.inr (.inr he)))
  have hindex : ∀ e ∈ incoming.index.map HistoricalEvidence.index, _ := fun e he =>
    hknown (mem_contexts.mpr (.inl ⟨rfl, he⟩))
  have hfactors : ∀ e ∈ incoming.factors.map HistoricalEvidence.factors, _ := fun e he =>
    hknown (mem_contexts.mpr (.inr (.inl ⟨rfl, he⟩)))
  have hfuture : ∀ e ∈ incoming.futureIndex.map HistoricalEvidence.futureIndex, _ := fun e he =>
    hknown (mem_contexts.mpr (.inr (.inr ⟨rfl, he⟩)))
  have hby : ∀ {new : Option HistoricalEvidence}, (∀ e ∈ new,
      state.evidenceById.get? e.fact.evidenceId = some e ∧ e.fact.availableAt ≤ cutoff) →
      ∀ e ∈ new, byIdentity new state.evidenceById = some e := by
    rintro new hnew e rfl
    exact (hnew e rfl).1
  unfold mergeContexts
  refine bind_eq_ok.mpr ⟨state.evidenceById, validateSlot_again (hby hindex) hindex,
    bind_eq_ok.mpr ⟨state.evidenceById, validateSlot_again (hby hfactors) hfactors,
      validateSlot_again (fun e he => ?_) hfuture⟩⟩
  obtain ⟨future, hfuture, rfl⟩ := Option.mem_map.mp he
  rw [Option.elim_some, HistoricalMonthInput.merged, HistoricalMonthInput.mergedWith,
    Option.mem_def.mp hfuture]
  rfl

/-- Merging an absorbed month again changes nothing. -/
theorem Absorbed.merge : mergeMonth cutoff state incoming = .ok state := by
  obtain ⟨previous, hprevious⟩ := h.month
  have hparts : MonthMerge cutoff state incoming
      (newObservations previous incoming.observations, state.evidenceById)
      (newPaths previous incoming.paths, state.evidenceById) state := ?_
  · exact hparts.of_parts
  constructor
  · rw [hprevious]
    rintro month ⟨⟩
    rfl
  · rw [hprevious]
    rintro month ⟨⟩
    refine ⟨fun a ha b hb => ?_, fun a ha b hb => ?_⟩
    · rw [HistoricalMonthInput.merged, HistoricalMonthInput.mergedWith, Option.mem_def.mp ha] at hb
      exact Option.some.inj hb
    · rw [HistoricalMonthInput.merged, HistoricalMonthInput.mergedWith, Option.mem_def.mp ha] at hb
      exact Option.some.inj hb
  · exact h.observations_nodup
  · rw [hprevious, Option.elim_some, observationsById_merged]
    exact foldlM_fixed fun row hrow => h.observation hrow
  · exact h.paths_nodup
  · rw [hprevious, Option.elim_some, pathsById_merged]
    exact foldlM_fixed fun path hpath => h.path hpath
  · rw [hprevious]
    exact h.contexts
  · rw [hprevious, HistoricalMonthInput.merged_again]
    exact (Dict.set_of_get?_eq_some hprevious).symm

end

theorem available_of_validateSlot {old : Option HistoricalEvidence} {byId byId' : EvidenceTable}
    (h : validateSlot cutoff new old byId = .ok byId') (he : e ∈ new) :
    e.fact.availableAt ≤ cutoff := by
  obtain rfl := Option.mem_def.mp he
  exact (validated_of_validate h).available

/-- A merged month has only evidence that is available at its cutoff. -/
theorem available_of_mergeMonth (h : mergeMonth cutoff state incoming = .ok state') :
    ∀ write ∈ incoming.evidence, write.2.fact.availableAt ≤ cutoff := by
  obtain ⟨observed, pathed, hmerge⟩ := merge_of_mergeMonth h
  rintro ⟨slot, e⟩ hwrite
  rcases mem_evidence.mp hwrite with ⟨row, hrow, he⟩ | ⟨path, hpath, he⟩ | he
  · obtain ⟨before, after, hstep⟩ := step_of_foldlM hmerge.observations hrow
    unfold mergeStandardObservation at hstep
    obtain ⟨_, hentry, hstep⟩ := bind_eq_ok.mp hstep
    obtain ⟨_, hterminal, -⟩ := bind_eq_ok.mp hstep
    rcases mem_observedEvidence.mp he with ⟨-, he⟩ | ⟨-, he⟩
    · exact available_of_validateSlot hentry he
    · exact available_of_validateSlot hterminal he
  · obtain ⟨before, after, hstep⟩ := step_of_foldlM hmerge.paths hpath
    unfold mergePath at hstep
    obtain ⟨_, -, hstep⟩ := bind_eq_ok.mp hstep
    obtain ⟨merged, hmerged, -⟩ := bind_eq_ok.mp hstep
    obtain ⟨mark, hmark, -, rfl⟩ := mem_pathEvidence.mp he
    obtain ⟨before', after', hmarked⟩ := step_of_foldlM hmerged hmark
    unfold mergeMark at hmarked
    obtain ⟨_, hvalidate, -⟩ := bind_eq_ok.mp hmarked
    exact (validated_of_validate hvalidate).available
  · have hcontexts := hmerge.contexts
    unfold mergeContexts at hcontexts
    obtain ⟨_, hindex, hcontexts⟩ := bind_eq_ok.mp hcontexts
    obtain ⟨_, hfactors, hfuture⟩ := bind_eq_ok.mp hcontexts
    rcases mem_contexts.mp he with ⟨-, he⟩ | ⟨-, he⟩ | ⟨-, he⟩
    · exact available_of_validateSlot hindex he
    · exact available_of_validateSlot hfactors he
    · exact available_of_validateSlot hfuture he

theorem absorbed_of_mergeMonth (h : mergeMonth cutoff state incoming = .ok state') :
    Absorbed cutoff incoming state' := by
  obtain ⟨observed, pathed, hmerge⟩ := merge_of_mergeMonth h
  refine ⟨⟨state.retained.get? incoming.planMonth, ?_⟩, hmerge.observations_nodup,
    hmerge.paths_nodup, hmerge.marks_nodup, fun write hwrite => ?_, available_of_mergeMonth h⟩
  · rw [hmerge.retained_eq, Dict.get?_set, if_pos rfl]
  · exact hmerge.trace.get?_of_mem (List.mem_map_of_mem hwrite)

theorem Absorbed.other (h : Absorbed cutoff incoming state) {other : HistoricalMonthInput}
    {cutoff' : Instant} (hother : other.planMonth ≠ incoming.planMonth)
    (hmerge : mergeMonth cutoff' state other = .ok state') : Absorbed cutoff incoming state' := by
  obtain ⟨observed, pathed, hparts⟩ := merge_of_mergeMonth hmerge
  obtain ⟨previous, hprevious⟩ := h.month
  refine ⟨⟨previous, ?_⟩, h.observations_nodup, h.paths_nodup, h.marks_nodup,
    fun write hwrite => ?_, h.available⟩
  · rw [hparts.retained_eq, Dict.get?_set, if_neg hother, hprevious]
  · exact VersionRun.get?_of_get? hparts.trace.run (h.known write hwrite)

theorem Absorbed.others (h : Absorbed cutoff incoming state)
    (hmonths : ∀ other ∈ months, other.planMonth ≠ incoming.planMonth)
    (hmerge : months.foldlM (mergeMonth cutoff) state = .ok state') :
    Absorbed cutoff incoming state' := by
  induction months generalizing state with
  | nil => exact Except.ok.inj hmerge ▸ h
  | cons other months ih =>
    rw [List.forall_mem_cons] at hmonths
    rw [List.foldlM_cons] at hmerge
    obtain ⟨middle, hmiddle, hmerge⟩ := bind_eq_ok.mp hmerge
    exact ih (h.other hmonths.1 hmiddle) hmonths.2 hmerge

/-- The months of a revision with a record for each month are absorbed. -/
theorem absorbed_of_foldlM (hmonths : (months.map (·.planMonth)).Nodup)
    (h : months.foldlM (mergeMonth cutoff) state = .ok state') :
    ∀ month ∈ months, Absorbed cutoff month state' := by
  induction months generalizing state with
  | nil => exact fun _ hmonth => absurd hmonth List.not_mem_nil
  | cons month months ih =>
    rw [List.map_cons, List.nodup_cons] at hmonths
    rw [List.foldlM_cons] at h
    obtain ⟨middle, hmiddle, h⟩ := bind_eq_ok.mp h
    refine List.forall_mem_cons.mpr ⟨?_, ih hmonths.2 h⟩
    refine (absorbed_of_mergeMonth hmiddle).others (fun other hother heq => ?_) h
    exact hmonths.1 (heq ▸ List.mem_map_of_mem hother)

end Again

section Revisions

variable {revisions earlier later : List MonthRevision} {revision last : MonthRevision}
  {state before : RetainedMonths} {key : MonthSlot} {e : HistoricalEvidence}

/-- The places in which a revision brings evidence. -/
def revisionWrites (revision : MonthRevision) : List (MonthSlot × HistoricalEvidence) :=
  revision.2.flatMap (·.writes)

theorem trace_of_mergeRevision (h : mergeRevision before revision = .ok state) :
    VersionTrace evidenceVersions (revisionWrites revision) before.store state.store := by
  have hstep : ∀ s month s', mergeMonth revision.1 s month = .ok s' →
      VersionTrace evidenceVersions month.writes s.store s'.store := fun _ _ _ =>
        trace_of_mergeMonth
  exact VersionTrace.of_foldlM hstep h

theorem trace_of_foldlM (h : revisions.foldlM mergeRevision before = .ok state) :
    VersionTrace evidenceVersions (revisions.flatMap revisionWrites) before.store state.store := by
  have hstep : ∀ s revision s', mergeRevision s revision = .ok s' →
      VersionTrace evidenceVersions (revisionWrites revision) s.store s'.store :=
    fun _ _ _ => trace_of_mergeRevision
  exact VersionTrace.of_foldlM hstep h

theorem retainedAfter_append : retainedAfter (earlier ++ later) =
    retainedAfter earlier >>= fun state => later.foldlM mergeRevision state :=
  List.foldlM_append

theorem sound_of_retainedAfter (h : retainedAfter revisions = .ok state) :
    state.store.Sound evidenceVersions :=
  VersionRun.sound (trace_of_foldlM h).run (VersionStore.sound_empty evidenceVersions)

theorem context_after_foldlM (hslot : IsContext key.2)
    (h : revisions.foldlM mergeRevision before = .ok state)
    (he : before.store.slots key = some e) : state.store.slots key = some e := by
  refine foldlM_invariant (P := fun s => s.store.slots key = some e)
    (fun s revision s' hs hrevision => ?_) he h
  exact foldlM_invariant (P := fun s => s.store.slots key = some e)
    (fun s month s' hs hmonth => context_after_month hmonth hslot hs) hs hrevision

/-- Appending the last revision again changes nothing. -/
theorem retainedAfter_again (h : retainedAfter (earlier ++ [last]) = .ok state)
    (hmonths : (last.2.map (·.planMonth)).Nodup) :
    retainedAfter (earlier ++ [last] ++ [last]) = .ok state := by
  rw [retainedAfter_append, h]
  rw [retainedAfter_append] at h
  obtain ⟨before, -, h⟩ := bind_eq_ok.mp h
  have hlast : mergeRevision before last = .ok state := by
    rw [List.foldlM_cons] at h
    obtain ⟨middle, hmiddle, h⟩ := bind_eq_ok.mp h
    exact Except.ok.inj h ▸ hmiddle
  have habsorbed := absorbed_of_foldlM hmonths hlast
  exact foldlM_fixed fun revision hrevision => by
    obtain rfl := List.mem_singleton.mp hrevision
    exact foldlM_fixed fun month hmonth => (habsorbed month hmonth).merge

/-- What is in the places before some revisions, and what becomes of it. -/
structure KeptFrom (revisions : List MonthRevision) (before state : RetainedMonths) : Prop where
  /-- Evidence stays in its place until it is explicitly corrected. -/
  kept : ∀ key e, before.store.slots key = some e →
    ∃ e', state.store.slots key = some e' ∧ Relation.ReflTransGen Corrects e e'
  /-- The index and the factors of a month are final. -/
  context : ∀ key e, IsContext key.2 → before.store.slots key = some e →
    state.store.slots key = some e
  /-- Evidence that was corrected is not accepted again. -/
  replay : ∀ key e e', before.store.slots key = some e → state.store.slots key = some e' →
    e' ≠ e → ∀ revision, (key, e) ∈ revisionWrites revision →
      ∀ after, retainedAfter (revisions ++ [revision]) ≠ .ok after

/-- What one more month does to what is retained. -/
structure MonthKeeps (incoming : HistoricalMonthInput) (state after : RetainedMonths) : Prop where
  /-- What the month brings is in its place. -/
  brought : ∀ key e, (key, e) ∈ incoming.writes → after.store.slots key = some e
  /-- What was in a place stays, or the month brings its correction. -/
  kept : ∀ key e, state.store.slots key = some e → after.store.slots key = some e ∨
    ∃ e', (key, e') ∈ incoming.writes ∧ after.store.slots key = some e' ∧ Corrects e e'

/-- Evidence that is retained is never lost or redefined. -/
structure Cumulative (revisions : List MonthRevision) (state : RetainedMonths) : Prop where
  merged : mergeMonthEvidence revisions = .ok state.retained
  /-- An identity denotes one content. -/
  identity : ∀ write ∈ revisions.flatMap revisionWrites,
    ∀ other ∈ revisions.flatMap revisionWrites,
      write.2.fact.evidenceId = other.2.fact.evidenceId → write.2 = other.2
  /-- What the revisions brought is in its place or was corrected there. -/
  brought : ∀ key e, (key, e) ∈ revisions.flatMap revisionWrites →
    ∃ e', state.store.slots key = some e' ∧ Relation.ReflTransGen Corrects e e'
  kept : ∀ earlier later, revisions = earlier ++ later →
    ∃ before, retainedAfter earlier = .ok before ∧ KeptFrom revisions before state
  month : ∀ cutoff incoming after, mergeMonth cutoff state incoming = .ok after →
    MonthKeeps incoming state after
  /-- Appending the last revision again changes nothing. -/
  again : ∀ earlier last, revisions = earlier ++ [last] → (last.2.map (·.planMonth)).Nodup →
    retainedAfter (revisions ++ [last]) = .ok state

theorem keptFrom_of_foldlM (hbefore : retainedAfter earlier = .ok before)
    (h : later.foldlM mergeRevision before = .ok state) :
    KeptFrom (earlier ++ later) before state := by
  have hrun := (trace_of_foldlM h).run
  refine ⟨fun key e he => VersionRun.slots_some hrun he, fun key e hslot he =>
    context_after_foldlM hslot h he, ?_⟩
  intro key e e' he he' hne revision hwrite after hafter
  rw [retainedAfter_append, retainedAfter_append, hbefore] at hafter
  obtain ⟨middle, hmiddle, hafter⟩ := bind_eq_ok.mp hafter
  obtain rfl := Except.ok.inj (hmiddle.symm.trans h)
  have htrace := trace_of_foldlM hafter
  rw [List.flatMap_singleton] at htrace
  exact htrace.no_replay hrun (sound_of_retainedAfter hbefore) he he' hne hwrite

/-- Accepted revisions are cumulative. -/
theorem retainedAfter_cumulative (h : retainedAfter revisions = .ok state) :
    Cumulative revisions state := by
  have htrace := trace_of_foldlM h
  refine ⟨?_, ?_, fun key e hwrite => htrace.kept_of_mem hwrite, ?_, ?_, ?_⟩
  · rw [mergeMonthEvidence, h]
    rfl
  · intro write hwrite other hother heq
    have hfirst := htrace.get?_of_mem hwrite
    have hsecond := htrace.get?_of_mem hother
    change state.evidenceById.get? write.2.fact.evidenceId = some write.2 at hfirst
    change state.evidenceById.get? other.2.fact.evidenceId = some other.2 at hsecond
    rw [heq, hsecond] at hfirst
    exact (Option.some.inj hfirst).symm
  · rintro earlier later rfl
    rw [retainedAfter_append] at h
    obtain ⟨before, hbefore, h⟩ := bind_eq_ok.mp h
    exact ⟨before, hbefore, keptFrom_of_foldlM hbefore h⟩
  · intro cutoff incoming after hafter
    exact ⟨fun key e => slots_of_writes hafter, fun key e => slots_after_month hafter⟩
  · rintro earlier last rfl hmonths
    exact retainedAfter_again h hmonths

end Revisions

namespace SampleRevisions

def future (id : String) (corrects : Option String) (price : ℚ)
    (hid : id ≠ "" := by decide) : FutureIndexEvidence where
  evidenceId := id
  sourceVersion := "v1"
  effectiveAt := 1
  publishedAt := 2
  acquiredAt := 3
  validatedAt := 4
  correctsEvidenceId := corrects
  correctionReason := corrects
  evidenceId_ne := hid
  corrects_iff := Iff.rfl
  startingAt := 0
  startingTotalReturnPrice := 100
  terminalTotalReturnPrice := price

def month (evidence : FutureIndexEvidence) : HistoricalMonthInput where
  planMonth := "2024-01"
  selectionEventId := "selection"
  standardEventId := none
  observations := []
  paths := []
  index := none
  factors := none
  futureIndex := some evidence

def original : HistoricalMonthInput := month (future "E1" none 110)

def correction : HistoricalMonthInput := month (future "E2" (some "E1") 120)

def corrected : List MonthRevision := [(5, [original]), (6, [correction])]

def twice : MonthRevision := (6, [original, correction])

theorem corrected_spec : (retainedAfter corrected).toOption.isSome = true ∧
    (retainedAfter [twice]).toOption.isSome = true ∧
    (retainedAfter [twice, twice]).toOption.isSome = false := by
  decide +kernel

/-- The corrected month is cumulative. -/
theorem corrected_cumulative : ∃ state, retainedAfter corrected = .ok state ∧
    Cumulative corrected state := by
  have hok := corrected_spec.1
  cases h : retainedAfter corrected with
  | error reason =>
    rw [h] at hok
    exact absurd hok nofun
  | ok state => exact ⟨state, rfl, retainedAfter_cumulative h⟩

/-- The revision that names its month twice is accepted, but not again. -/
theorem twice_not_again : ¬ ∀ earlier last state, retainedAfter (earlier ++ [last]) = .ok state →
    retainedAfter (earlier ++ [last] ++ [last]) = .ok state := by
  intro hagain
  obtain ⟨-, hok, hfailed⟩ := corrected_spec
  cases h : retainedAfter [twice] with
  | error reason =>
    rw [h] at hok
    exact absurd hok nofun
  | ok state =>
    have hsecond : retainedAfter [twice, twice] = .ok state := hagain [] twice state h
    rw [hsecond] at hfailed
    exact absurd hfailed nofun

end SampleRevisions

end StockProfiler.Evaluation
