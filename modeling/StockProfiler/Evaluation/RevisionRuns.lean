import StockProfiler.Core.Filed
import StockProfiler.Evaluation.HistoricalRevisions

/-!
# Evidence is never lost or redefined

Merging the months of revisions is a trace of a version store whose slots are the places
of the evidence of every month.
-/

namespace StockProfiler.Evaluation

/-- A place for evidence in a month. -/
inductive EvidenceSlot where
  | entry (securityId : String)
  | terminal (securityId : String)
  | mark (securityId : String) (session : Instant)
  | index
  | factors
  | futureIndex
  deriving DecidableEq

/-- What identifies evidence. -/
def evidenceVersions : Versioned HistoricalEvidence String Instant where
  id evidence := evidence.fact.evidenceId
  corrects evidence := evidence.fact.correctsEvidenceId
  availableAt evidence := evidence.fact.availableAt

/-- Evidence that explicitly corrects another one and is not available earlier. -/
abbrev Corrects (old new : HistoricalEvidence) : Prop := evidenceVersions.Replaces old new

/-- The evidence in the places of a month. -/
abbrev SlotReading := EvidenceSlot → Option HistoricalEvidence

/-- The evidence of observations, paths and contexts, by place. -/
def slotReading (observations : Dict String StandardObservation) (paths : Dict String WealthPath)
    (index : Option SelectionIndexEvidence) (factors : Option FactorEvidence)
    (futureIndex : Option FutureIndexEvidence) : SlotReading
  | .entry securityId => ((observations.get? securityId).bind (·.entry)).map .entry
  | .terminal securityId => ((observations.get? securityId).bind (·.terminal)).map .terminal
  | .mark securityId session =>
    ((paths.get? securityId).bind fun path => (marksOf path).get? session).map .terminal
  | .index => index.map .index
  | .factors => factors.map .factors
  | .futureIndex => futureIndex.map .futureIndex

variable (month : HistoricalMonthInput)

/-- The evidence of a month, by place. -/
def HistoricalMonthInput.slot : SlotReading :=
  slotReading month.observationsById month.pathsById month.index month.factors month.futureIndex

/-- The retained evidence of a month, by place. -/
def slotOf (retained : Dict String HistoricalMonthInput) (planMonth : String) : SlotReading :=
  (retained.get? planMonth).elim (fun _ => none) (·.slot)

/-- Evidence with its place. -/
abbrev PlacedEvidence := EvidenceSlot × HistoricalEvidence

/-- The evidence for a place, where there is any. -/
def placed (slot : EvidenceSlot) (new : Option HistoricalEvidence) : List PlacedEvidence :=
  (new.map (slot, ·)).toList

/-- The evidence of an observation. -/
def observedEvidence (row : StandardObservation) : List PlacedEvidence :=
  placed (.entry row.securityId) (row.entry.map .entry) ++
    placed (.terminal row.securityId) (row.terminal.map .terminal)

/-- The evidence of a path. -/
def WealthPath.evidence (path : WealthPath) : List PlacedEvidence :=
  path.marks.map fun mark => (.mark path.securityId mark.effectiveAt, .terminal mark)

/-- The evidence of the contexts of a month. -/
def HistoricalMonthInput.contexts : List PlacedEvidence :=
  placed .index (month.index.map .index) ++ (placed .factors (month.factors.map .factors) ++
    placed .futureIndex (month.futureIndex.map .futureIndex))

/-- The evidence that a month brings, with its places, in the order in which it is merged. -/
def HistoricalMonthInput.evidence : List PlacedEvidence :=
  month.observations.flatMap observedEvidence ++
    (month.paths.flatMap (·.evidence) ++ month.contexts)

/-- The places of all months. -/
abbrev MonthSlot := String × EvidenceSlot

/-- A store of evidence. -/
abbrev EvidenceStore := VersionStore MonthSlot HistoricalEvidence String

/-- What is retained, as a store. -/
def RetainedMonths.store (state : RetainedMonths) : EvidenceStore where
  slots key := slotOf state.retained key.1 key.2
  byId := state.evidenceById

/-- A store in which the evidence of one month is being merged. -/
def monthStore (others : MonthSlot → Option HistoricalEvidence) (planMonth : String)
    (reading : SlotReading) (byId : EvidenceTable) : EvidenceStore where
  slots key := if key.1 = planMonth then reading key.2 else others key
  byId

/-- The places of a month in the store. -/
def monthWrites (planMonth : String) (writes : List PlacedEvidence) :
    List (MonthSlot × HistoricalEvidence) :=
  writes.map fun write => ((planMonth, write.1), write.2)

theorem monthWrites_append (planMonth : String) (writes writes' : List PlacedEvidence) :
    monthWrites planMonth (writes ++ writes') =
      monthWrites planMonth writes ++ monthWrites planMonth writes' := List.map_append

theorem monthWrites_flatMap {α : Type*} (planMonth : String) (items : List α)
    (writes : α → List PlacedEvidence) : monthWrites planMonth (items.flatMap writes) =
      items.flatMap fun item => monthWrites planMonth (writes item) := List.map_flatMap

/-- A reading with new evidence in a place, where there is any. -/
def revised (reading : SlotReading) (slot : EvidenceSlot) (new : Option HistoricalEvidence) :
    SlotReading := fun slot' => if slot' = slot then new <|> reading slot else reading slot'

section Slot

variable {cutoff : Instant} {new : HistoricalEvidence} {old : Option HistoricalEvidence}
  {byId byId' : EvidenceTable} {others : MonthSlot → Option HistoricalEvidence}
  {planMonth : String} {reading : SlotReading} {slot : EvidenceSlot}

/-- What the validation of evidence establishes. -/
structure Validated (cutoff : Instant) (new : HistoricalEvidence)
    (old : Option HistoricalEvidence) (byId byId' : EvidenceTable) : Prop where
  same : ∀ found ∈ byId.get? new.fact.evidenceId, found = new
  available : new.fact.availableAt ≤ cutoff
  first : old = none → new.fact.correctsEvidenceId = none
  corrects : ∀ e ∈ old, new = e ∨ Corrects e new
  byId_eq : byId' = byId.set new.fact.evidenceId new

theorem validated_of_validate (h : validate cutoff new old byId = .ok byId') :
    Validated cutoff new old byId byId' := by
  unfold validate at h
  obtain ⟨_, hsame, h⟩ := bind_eq_ok.mp h
  obtain ⟨_, havailable, h⟩ := bind_eq_ok.mp h
  obtain ⟨_, hcorrects, h⟩ := bind_eq_ok.mp h
  refine ⟨require_eq_ok.mp hsame, require_eq_ok.mp havailable, ?_, ?_, (Except.ok.inj h).symm⟩
  · rintro rfl
    exact require_eq_ok.mp hcorrects
  · rintro e rfl
    exact (require_eq_ok.mp hcorrects).imp_right fun h => ⟨h.1, h.2.1, h.2.2⟩

theorem validate_of_validated (h : Validated cutoff new old byId byId') :
    validate cutoff new old byId = .ok byId' := by
  unfold validate
  refine bind_eq_ok.mpr ⟨(), require_eq_ok.mpr h.same, bind_eq_ok.mpr ⟨(),
    require_eq_ok.mpr h.available, bind_eq_ok.mpr ⟨(), ?_, congrArg Except.ok h.byId_eq.symm⟩⟩⟩
  cases hold : old with
  | none => exact require_eq_ok.mpr (h.first hold)
  | some e =>
    refine require_eq_ok.mpr ((h.corrects e hold).imp_right fun h => ?_)
    exact ⟨h.corrects, h.other, h.later⟩

/-- Evidence that is validated in a place is written there. -/
theorem trace_of_validateSlot {new : Option HistoricalEvidence}
    (h : validateSlot cutoff new old byId = .ok byId') (hold : old = reading slot ∨
      old = byIdentity new byId ∧ ∀ e ∈ new, ∀ found ∈ reading slot, e = found) :
    VersionTrace evidenceVersions (monthWrites planMonth (placed slot new))
      (monthStore others planMonth reading byId)
      (monthStore others planMonth (revised reading slot new) byId') := by
  cases new with
  | none =>
    cases h
    have hsame : revised reading slot none = reading := by
      funext slot'
      unfold revised
      split
      · rename_i heq
        exact congrArg reading heq.symm
      · rfl
    rw [hsame]
    exact .nil _
  | some new =>
    have hvalid := validated_of_validate h
    have hslot : ∀ byId, (monthStore others planMonth reading byId).slots (planMonth, slot) =
        reading slot := fun byId => if_pos rfl
    refine VersionTrace.single ⟨hvalid.same, ?_, ?_, hvalid.byId_eq, ?_⟩
    · intro found hfound
      rw [hslot] at hfound
      rcases hold with rfl | ⟨-, hsame⟩
      · exact hvalid.corrects found hfound
      · exact .inl (hsame new rfl found hfound)
    · intro hnone
      rw [hslot] at hnone
      rcases hold with rfl | ⟨heq, -⟩
      · exact .inr (hvalid.first hnone)
      · cases hfound : byId.get? new.fact.evidenceId with
        | none => exact .inr (hvalid.first (heq.trans hfound))
        | some found => exact .inl (hfound.trans (congrArg some (hvalid.same found hfound)))
    · funext key
      obtain ⟨month, slot'⟩ := key
      by_cases hmonth : month = planMonth
      · subst hmonth
        by_cases heq : slot' = slot
        · subst heq
          simp [monthStore, revised]
        · have hne : (month, slot') ≠ (month, slot) := fun h => heq (Prod.mk.inj h).2
          simp [monthStore, revised, heq]
      · have hne : (month, slot') ≠ (planMonth, slot) := fun h => hmonth (Prod.mk.inj h).1
        simp [monthStore, hmonth]

end Slot

section Month

variable {securityId : String} {marks : Dict Instant TerminalEvidence} {cutoff : Instant}
  {others : MonthSlot → Option HistoricalEvidence} {planMonth : String}
  {observations observations' : Dict String StandardObservation}
  {paths paths' : Dict String WealthPath} {index : Option SelectionIndexEvidence}
  {factors : Option FactorEvidence} {future : Option FutureIndexEvidence}
  {byId byId' : EvidenceTable}

/-- What merging an observation does to the observations. -/
theorem observations_of_merge (state : Dict String StandardObservation × EvidenceTable)
    (row : StandardObservation) (state' : Dict String StandardObservation × EvidenceTable)
    (h : mergeStandardObservation cutoff state row = .ok state') :
    state'.1 = state.1.set row.securityId (row.mergedWith (state.1.get? row.securityId)) := by
  unfold mergeStandardObservation at h
  obtain ⟨_, _, h⟩ := bind_eq_ok.mp h
  obtain ⟨_, _, h⟩ := bind_eq_ok.mp h
  exact (congrArg Prod.fst (Except.ok.inj h)).symm

/-- The places of a merged observation have its new evidence. -/
theorem slotReading_mergedWith (row : StandardObservation) :
    slotReading (observations.set row.securityId
      (row.mergedWith (observations.get? row.securityId))) paths index factors future =
    revised (revised (slotReading observations paths index factors future)
      (.entry row.securityId) (row.entry.map .entry))
      (.terminal row.securityId) (row.terminal.map .terminal) := by
  funext slot
  unfold revised
  cases slot with
  | entry id =>
    by_cases hid : id = row.securityId
    · subst hid
      simp [slotReading, Dict.get?_set, StandardObservation.mergedWith, Option.map_or,
        Option.map_bind]
    · simp [slotReading, Dict.get?_set, hid, Ne.symm hid]
  | terminal id =>
    by_cases hid : id = row.securityId
    · subst hid
      simp [slotReading, Dict.get?_set, StandardObservation.mergedWith, Option.map_or,
        Option.map_bind]
    · simp [slotReading, Dict.get?_set, hid, Ne.symm hid]
  | _ => rfl

theorem trace_of_mergeObservation {state state' : Dict String StandardObservation × EvidenceTable}
    {row : StandardObservation} (h : mergeStandardObservation cutoff state row = .ok state') :
    VersionTrace evidenceVersions (monthWrites planMonth (observedEvidence row))
      (monthStore others planMonth (slotReading state.1 paths index factors future) state.2)
      (monthStore others planMonth (slotReading state'.1 paths index factors future) state'.2) := by
  have hobservations := observations_of_merge _ _ _ h
  unfold mergeStandardObservation at h
  obtain ⟨entered, hentry, h⟩ := bind_eq_ok.mp h
  obtain ⟨terminated, hterminal, h⟩ := bind_eq_ok.mp h
  have hbyId := congrArg Prod.snd (Except.ok.inj h)
  dsimp only at hbyId
  rw [observedEvidence, monthWrites_append, hobservations, slotReading_mergedWith, ← hbyId]
  refine VersionTrace.append (trace_of_validateSlot hentry (.inl rfl))
    (trace_of_validateSlot hterminal (.inl ?_))
  rfl

theorem trace_of_mergeObservations {state state' : Dict String StandardObservation × EvidenceTable}
    {rows : List StandardObservation}
    (h : rows.foldlM (mergeStandardObservation cutoff) state = .ok state') :
    VersionTrace evidenceVersions (monthWrites planMonth (rows.flatMap observedEvidence))
      (monthStore others planMonth (slotReading state.1 paths index factors future) state.2)
      (monthStore others planMonth (slotReading state'.1 paths index factors future) state'.2) := by
  rw [monthWrites_flatMap]
  have hstep : ∀ s row s', mergeStandardObservation cutoff s row = .ok s' →
      VersionTrace evidenceVersions (monthWrites planMonth (observedEvidence row))
        (monthStore others planMonth (slotReading s.1 paths index factors future) s.2)
        (monthStore others planMonth (slotReading s'.1 paths index factors future) s'.2) :=
    fun _ _ _ => trace_of_mergeObservation
  exact VersionTrace.of_foldlM hstep h

/-- Marks with new ones in the places of their sessions. -/
abbrev newMarks (marks : Dict Instant TerminalEvidence) (new : List TerminalEvidence) :
    Dict Instant TerminalEvidence := marks.refile (·.effectiveAt) (fun mark _ => mark) new

/-- A path with what is retained of it. -/
def WealthPath.mergedWith (path : WealthPath) (prior : Option WealthPath) : WealthPath where
  securityId := path.securityId
  marks := sortedMarks (newMarks (prior.elim [] marksOf) path.marks)

theorem filed_marksOf (path : WealthPath) : (marksOf path).Filed (·.effectiveAt) :=
  Dict.filed_ofLast path.marks

theorem filed_priorMarks (prior : Option WealthPath) :
    Dict.Filed (·.effectiveAt) (prior.elim [] marksOf) := by
  cases prior with
  | none => exact Dict.filed_nil
  | some path => exact filed_marksOf path

theorem filed_newMarks (prior : Option WealthPath) (marks : List TerminalEvidence) :
    Dict.Filed (·.effectiveAt) (newMarks (prior.elim [] marksOf) marks) := by
  have hprior := filed_priorMarks prior
  refine hprior.refile (fun mark old => ?_) marks
  rfl

theorem mem_sortedMarks (hmarks : marks.Filed (·.effectiveAt)) {mark : TerminalEvidence} :
    mark ∈ sortedMarks marks ↔ marks.get? mark.effectiveAt = some mark := by
  rw [sortedMarks, List.mem_filterMap]
  constructor
  · rintro ⟨session, -, hmark⟩
    rw [hmarks.key_of_get? hmark]
    exact hmark
  · intro hmark
    exact ⟨_, mem_sortedSet.mpr (mem_keys_of_get? hmark), hmark⟩

theorem get?_marksOf_sortedMarks (hmarks : marks.Filed (·.effectiveAt)) (securityId : String)
    (session : Instant) :
    (marksOf ⟨securityId, sortedMarks marks⟩).get? session = marks.get? session := by
  cases hmark : marks.get? session with
  | none =>
    rw [marksOf, Dict.get?_ofLast, ← Option.not_isSome_iff_eq_none, ← Dict.mem_keys_iff]
    intro hmem
    obtain ⟨entry, hentry, rfl⟩ := List.mem_map.mp hmem
    obtain ⟨mark, hmark', rfl⟩ := List.mem_map.mp (List.mem_reverse.mp hentry)
    exact absurd (hmark.symm.trans ((mem_sortedMarks hmarks).mp hmark')) nofun
  | some mark =>
    have hsession := hmarks.key_of_get? hmark
    subst hsession
    refine Dict.get?_ofLast_of_mem ?_ ?_
    · exact List.mem_map.mpr ⟨mark, (mem_sortedMarks hmarks).mpr hmark, rfl⟩
    · intro other hother
      obtain ⟨mark', hmark', heq⟩ := List.mem_map.mp hother
      obtain ⟨hsession, rfl⟩ := Prod.mk.inj heq
      have hother := (mem_sortedMarks hmarks).mp hmark'
      rw [hsession, hmark] at hother
      exact (Option.some.inj hother).symm

variable (reading : SlotReading)

/-- A reading with the marks of one security in the places of its path. -/
def markReading (securityId : String) (marks : Dict Instant TerminalEvidence) : SlotReading
  | .mark id session =>
    if id = securityId then (marks.get? session).map .terminal else reading (.mark id session)
  | slot => reading slot

theorem markReading_set (securityId : String) (marks : Dict Instant TerminalEvidence)
    (mark : TerminalEvidence) :
    markReading reading securityId (marks.set mark.effectiveAt mark) =
      revised (markReading reading securityId marks) (.mark securityId mark.effectiveAt)
        (some (.terminal mark)) := by
  funext slot
  unfold revised
  cases slot with
  | mark id session =>
    by_cases hid : id = securityId
    · subst hid
      by_cases hsession : session = mark.effectiveAt
      · subst hsession
        simp [markReading, Dict.get?_set]
      · simp [markReading, Dict.get?_set, hsession, Ne.symm hsession]
    · simp [markReading, hid]
  | _ => rfl

theorem marks_of_mergeMark (state : Dict Instant TerminalEvidence × EvidenceTable)
    (mark : TerminalEvidence) (state' : Dict Instant TerminalEvidence × EvidenceTable)
    (h : mergeMark cutoff state mark = .ok state') :
    state'.1 = state.1.set mark.effectiveAt mark := by
  unfold mergeMark at h
  obtain ⟨_, _, h⟩ := bind_eq_ok.mp h
  exact (congrArg Prod.fst (Except.ok.inj h)).symm

theorem marks_of_mergeMarks {state state' : Dict Instant TerminalEvidence × EvidenceTable}
    {marks : List TerminalEvidence} (h : marks.foldlM (mergeMark cutoff) state = .ok state') :
    state'.1 = newMarks state.1 marks := Dict.refile_of_foldlM marks_of_mergeMark h

variable (others planMonth) in
theorem trace_of_mergeMarks (securityId : String)
    {state state' : Dict Instant TerminalEvidence × EvidenceTable} {marks : List TerminalEvidence}
    (h : marks.foldlM (mergeMark cutoff) state = .ok state') :
    VersionTrace evidenceVersions
      (monthWrites planMonth (WealthPath.mk securityId marks).evidence)
      (monthStore others planMonth (markReading reading securityId state.1) state.2)
      (monthStore others planMonth (markReading reading securityId state'.1) state'.2) := by
  have hstep : ∀ s mark s', mergeMark cutoff s mark = .ok s' →
      VersionTrace evidenceVersions
        (monthWrites planMonth [(.mark securityId mark.effectiveAt, .terminal mark)])
        (monthStore others planMonth (markReading reading securityId s.1) s.2)
        (monthStore others planMonth (markReading reading securityId s'.1) s'.2) := by
    intro s mark s' h
    unfold mergeMark at h
    obtain ⟨byId, hvalidate, h⟩ := bind_eq_ok.mp h
    cases h
    rw [markReading_set]
    have hold : (s.1.get? mark.effectiveAt).map .terminal =
        markReading reading securityId s.1 (.mark securityId mark.effectiveAt) := (if_pos rfl).symm
    have hslot : validateSlot cutoff (some (.terminal mark))
        ((s.1.get? mark.effectiveAt).map .terminal) s.2 = .ok byId := hvalidate
    exact trace_of_validateSlot hslot (.inl hold)
  rw [WealthPath.evidence, List.map_eq_flatMap, monthWrites_flatMap]
  exact VersionTrace.of_foldlM hstep h

theorem paths_of_mergePath (state : Dict String WealthPath × EvidenceTable) (path : WealthPath)
    (state' : Dict String WealthPath × EvidenceTable)
    (h : mergePath cutoff state path = .ok state') :
    state'.1 = state.1.set path.securityId (path.mergedWith (state.1.get? path.securityId)) := by
  unfold mergePath at h
  obtain ⟨_, _, h⟩ := bind_eq_ok.mp h
  obtain ⟨merged, hmerged, h⟩ := bind_eq_ok.mp h
  rw [← Except.ok.inj h]
  dsimp only
  rw [marks_of_mergeMarks hmerged, WealthPath.mergedWith]

theorem slotReading_setPath (hmarks : marks.Filed (·.effectiveAt)) :
    slotReading observations (paths.set securityId ⟨securityId, sortedMarks marks⟩)
        index factors future =
      markReading (slotReading observations paths index factors future) securityId marks := by
  funext slot
  cases slot with
  | mark id session =>
    by_cases hid : id = securityId
    · subst hid
      simp [slotReading, markReading, Dict.get?_set, get?_marksOf_sortedMarks hmarks]
    · simp [slotReading, markReading, Dict.get?_set, hid, Ne.symm hid]
  | _ => rfl

theorem markReading_self :
    markReading (slotReading observations paths index factors future) securityId
        ((paths.get? securityId).elim [] marksOf) =
      slotReading observations paths index factors future := by
  funext slot
  cases slot with
  | mark id session =>
    by_cases hid : id = securityId
    · subst hid
      cases hpath : paths.get? id <;> simp [slotReading, markReading, hpath]
    · simp [markReading, hid]
  | _ => rfl

theorem trace_of_mergePath {state state' : Dict String WealthPath × EvidenceTable}
    {path : WealthPath} (h : mergePath cutoff state path = .ok state') :
    VersionTrace evidenceVersions (monthWrites planMonth path.evidence)
      (monthStore others planMonth (slotReading observations state.1 index factors future) state.2)
      (monthStore others planMonth (slotReading observations state'.1 index factors future)
        state'.2) := by
  unfold mergePath at h
  obtain ⟨_, _, h⟩ := bind_eq_ok.mp h
  obtain ⟨merged, hmerged, h⟩ := bind_eq_ok.mp h
  cases h
  have hmarks : merged.1.Filed (·.effectiveAt) := by
    rw [marks_of_mergeMarks hmerged]
    exact filed_newMarks _ _
  have htrace := trace_of_mergeMarks others planMonth
    (slotReading observations state.1 index factors future) path.securityId hmerged
  rw [markReading_self] at htrace
  rw [slotReading_setPath hmarks]
  exact htrace

theorem trace_of_mergePaths {state state' : Dict String WealthPath × EvidenceTable}
    {new : List WealthPath} (h : new.foldlM (mergePath cutoff) state = .ok state') :
    VersionTrace evidenceVersions (monthWrites planMonth (new.flatMap (·.evidence)))
      (monthStore others planMonth (slotReading observations state.1 index factors future) state.2)
      (monthStore others planMonth (slotReading observations state'.1 index factors future)
        state'.2) := by
  rw [monthWrites_flatMap]
  have hstep : ∀ s path s', mergePath cutoff s path = .ok s' →
      VersionTrace evidenceVersions (monthWrites planMonth path.evidence)
        (monthStore others planMonth (slotReading observations s.1 index factors future) s.2)
        (monthStore others planMonth (slotReading observations s'.1 index factors future) s'.2) :=
    fun _ _ _ => trace_of_mergePath
  exact VersionTrace.of_foldlM hstep h

theorem slotReading_contexts (newIndex : Option SelectionIndexEvidence)
    (newFactors : Option FactorEvidence) (newFuture : Option FutureIndexEvidence) :
    slotReading observations paths (newIndex <|> index) (newFactors <|> factors)
        (newFuture <|> future) =
      revised (revised (revised (slotReading observations paths index factors future)
        .index (newIndex.map .index)) .factors (newFactors.map .factors))
        .futureIndex (newFuture.map .futureIndex) := by
  funext slot
  unfold revised
  cases slot <;> simp [slotReading, Option.map_or]

theorem trace_of_mergeContexts {previous : Option HistoricalMonthInput}
    {incoming : HistoricalMonthInput} (h : mergeContexts cutoff previous incoming byId = .ok byId')
    (hindex : ∀ month ∈ previous, SameContext incoming.index month.index)
    (hfactors : ∀ month ∈ previous, SameContext incoming.factors month.factors) :
    VersionTrace evidenceVersions (monthWrites planMonth incoming.contexts)
      (monthStore others planMonth (slotReading observations paths (previous.bind (·.index))
        (previous.bind (·.factors)) (previous.bind (·.futureIndex))) byId)
      (monthStore others planMonth (slotReading observations paths
        (incoming.index <|> previous.bind (·.index))
        (incoming.factors <|> previous.bind (·.factors))
        (incoming.futureIndex <|> previous.bind (·.futureIndex))) byId') := by
  unfold mergeContexts at h
  obtain ⟨indexed, hindexed, h⟩ := bind_eq_ok.mp h
  obtain ⟨factored, hfactored, h⟩ := bind_eq_ok.mp h
  rw [slotReading_contexts, HistoricalMonthInput.contexts, monthWrites_append, monthWrites_append]
  refine VersionTrace.append (trace_of_validateSlot hindexed (.inr ⟨rfl, ?_⟩))
    (VersionTrace.append (trace_of_validateSlot hfactored (.inr ⟨rfl, ?_⟩))
      (trace_of_validateSlot h ?_))
  · intro e he found hfound
    obtain ⟨new, hnew, rfl⟩ := Option.mem_map.mp he
    obtain ⟨old, hold, rfl⟩ := Option.mem_map.mp hfound
    obtain ⟨month, hmonth, hold⟩ := Option.mem_bind_iff.mp hold
    exact congrArg _ (hindex month hmonth new hnew old hold)
  · intro e he found hfound
    obtain ⟨new, hnew, rfl⟩ := Option.mem_map.mp he
    obtain ⟨old, hold, rfl⟩ := Option.mem_map.mp hfound
    obtain ⟨month, hmonth, hold⟩ := Option.mem_bind_iff.mp hold
    exact congrArg _ (hfactors month hmonth new hnew old hold)
  · cases previous with
    | none => exact .inr ⟨rfl, fun _ _ found hfound => absurd hfound nofun⟩
    | some month => exact .inl rfl

end Month

section Months

variable {cutoff : Instant} {state state' : RetainedMonths} {incoming : HistoricalMonthInput}

/-- The observations of a month after more of them. -/
abbrev newObservations (previous : Option HistoricalMonthInput)
    (rows : List StandardObservation) : Dict String StandardObservation :=
  Dict.refile (·.securityId) StandardObservation.mergedWith
    (previous.elim [] (·.observationsById)) rows

/-- The paths of a month after more of them. -/
abbrev newPaths (previous : Option HistoricalMonthInput) (paths : List WealthPath) :
    Dict String WealthPath :=
  Dict.refile (·.securityId) WealthPath.mergedWith (previous.elim [] (·.pathsById)) paths

/-- A month with what is retained of it. -/
def HistoricalMonthInput.merged (incoming : HistoricalMonthInput)
    (previous : Option HistoricalMonthInput) : HistoricalMonthInput :=
  incoming.mergedWith previous (newObservations previous incoming.observations)
    (newPaths previous incoming.paths)

/-- The parts of merging a month. -/
structure MonthMerge (cutoff : Instant) (state : RetainedMonths) (incoming : HistoricalMonthInput)
    (observed : Dict String StandardObservation × EvidenceTable)
    (pathed : Dict String WealthPath × EvidenceTable) (state' : RetainedMonths) : Prop where
  selection : ∀ month ∈ state.retained.get? incoming.planMonth,
    incoming.selectionEventId = month.selectionEventId
  context : ∀ month ∈ state.retained.get? incoming.planMonth,
    SameContext incoming.index month.index ∧ SameContext incoming.factors month.factors
  observations_nodup : (incoming.observations.map (·.securityId)).Nodup
  observations : incoming.observations.foldlM (mergeStandardObservation cutoff)
    ((state.retained.get? incoming.planMonth).elim [] (·.observationsById), state.evidenceById) =
      .ok observed
  paths_nodup : (incoming.paths.map (·.securityId)).Nodup
  paths : incoming.paths.foldlM (mergePath cutoff)
    ((state.retained.get? incoming.planMonth).elim [] (·.pathsById), observed.2) = .ok pathed
  contexts : mergeContexts cutoff (state.retained.get? incoming.planMonth) incoming pathed.2 =
    .ok state'.evidenceById
  retained : state'.retained = state.retained.set incoming.planMonth
    (incoming.mergedWith (state.retained.get? incoming.planMonth) observed.1 pathed.1)

theorem merge_of_mergeMonth (h : mergeMonth cutoff state incoming = .ok state') :
    ∃ observed pathed, MonthMerge cutoff state incoming observed pathed state' := by
  unfold mergeMonth at h
  dsimp only at h
  obtain ⟨_, hselection, h⟩ := bind_eq_ok.mp h
  obtain ⟨_, hcontext, h⟩ := bind_eq_ok.mp h
  obtain ⟨_, hobservations, h⟩ := bind_eq_ok.mp h
  obtain ⟨observed, hobserved, h⟩ := bind_eq_ok.mp h
  obtain ⟨_, hpaths, h⟩ := bind_eq_ok.mp h
  obtain ⟨pathed, hpathed, h⟩ := bind_eq_ok.mp h
  obtain ⟨byId, hcontexts, h⟩ := bind_eq_ok.mp h
  cases h
  exact ⟨observed, pathed, require_eq_ok.mp hselection, require_eq_ok.mp hcontext,
    require_eq_ok.mp hobservations, hobserved, require_eq_ok.mp hpaths, hpathed, hcontexts, rfl⟩

theorem MonthMerge.of_parts {observed : Dict String StandardObservation × EvidenceTable}
    {pathed : Dict String WealthPath × EvidenceTable}
    (h : MonthMerge cutoff state incoming observed pathed state') :
    mergeMonth cutoff state incoming = .ok state' := by
  unfold mergeMonth
  dsimp only
  refine bind_eq_ok.mpr ⟨(), require_eq_ok.mpr h.selection, bind_eq_ok.mpr ⟨(),
    require_eq_ok.mpr h.context, bind_eq_ok.mpr ⟨(), require_eq_ok.mpr h.observations_nodup,
    bind_eq_ok.mpr ⟨observed, h.observations, bind_eq_ok.mpr ⟨(),
    require_eq_ok.mpr h.paths_nodup, bind_eq_ok.mpr ⟨pathed, h.paths, bind_eq_ok.mpr
    ⟨state'.evidenceById, h.contexts, ?_⟩⟩⟩⟩⟩⟩⟩
  rw [← h.retained]
  rfl

section Parts

variable {observed : Dict String StandardObservation × EvidenceTable}
  {pathed : Dict String WealthPath × EvidenceTable}

variable (h : MonthMerge cutoff state incoming observed pathed state')

include h in
theorem MonthMerge.observed_eq :
    observed.1 = newObservations (state.retained.get? incoming.planMonth) incoming.observations :=
  Dict.refile_of_foldlM observations_of_merge h.observations

include h in
theorem MonthMerge.pathed_eq :
    pathed.1 = newPaths (state.retained.get? incoming.planMonth) incoming.paths :=
  Dict.refile_of_foldlM paths_of_mergePath h.paths

include h in
theorem MonthMerge.retained_eq :
    state'.retained = state.retained.set incoming.planMonth
      (incoming.merged (state.retained.get? incoming.planMonth)) := by
  rw [h.retained, h.observed_eq, h.pathed_eq, HistoricalMonthInput.merged]

variable (previous : Option HistoricalMonthInput)

/-- What is retained of a month has the places of its dictionaries. -/
theorem slot_mergedWith {observations : Dict String StandardObservation}
    {paths : Dict String WealthPath} (hobservations : observations.Filed (·.securityId))
    (hpaths : paths.Filed (·.securityId)) :
    (incoming.mergedWith previous observations paths).slot =
      slotReading observations paths (incoming.index <|> previous.bind (·.index))
        (incoming.factors <|> previous.bind (·.factors))
        (incoming.futureIndex <|> previous.bind (·.futureIndex)) := by
  have hobs : (incoming.mergedWith previous observations paths).observationsById = observations :=
    hobservations.ofLast_values
  have hpath : (incoming.mergedWith previous observations paths).pathsById = paths :=
    hpaths.ofLast_values
  rw [HistoricalMonthInput.slot, hobs, hpath, HistoricalMonthInput.mergedWith]

theorem filed_newObservations (rows : List StandardObservation) :
    Dict.Filed (·.securityId) (newObservations previous rows) := by
  have hprevious : Dict.Filed (·.securityId)
      (previous.elim ([] : Dict String StandardObservation) (·.observationsById)) := by
    cases previous with
    | none => exact Dict.filed_nil
    | some month => exact Dict.filed_ofLast month.observations
  refine hprevious.refile (fun row prior => ?_) rows
  rfl

theorem filed_newPaths (paths : List WealthPath) :
    Dict.Filed (·.securityId) (newPaths previous paths) := by
  have hprevious : Dict.Filed (·.securityId)
      (previous.elim ([] : Dict String WealthPath) (·.pathsById)) := by
    cases previous with
    | none => exact Dict.filed_nil
    | some month => exact Dict.filed_ofLast month.paths
  refine hprevious.refile (fun path prior => ?_) paths
  rfl

theorem slotOf_eq_slotReading (retained : Dict String HistoricalMonthInput) (planMonth : String) :
    slotOf retained planMonth =
      slotReading ((retained.get? planMonth).elim [] (·.observationsById))
        ((retained.get? planMonth).elim [] (·.pathsById))
        ((retained.get? planMonth).bind (·.index)) ((retained.get? planMonth).bind (·.factors))
        ((retained.get? planMonth).bind (·.futureIndex)) := by
  unfold slotOf
  cases retained.get? planMonth with
  | none =>
    funext slot
    cases slot <;> rfl
  | some month => rfl

include h in
/-- A merged month writes its evidence one version after the other. -/
theorem MonthMerge.trace :
    VersionTrace evidenceVersions (monthWrites incoming.planMonth incoming.evidence)
      state.store state'.store := by
  let others : MonthSlot → Option HistoricalEvidence := fun key => slotOf state.retained key.1 key.2
  have hbefore : state.store = monthStore others incoming.planMonth
      (slotOf state.retained incoming.planMonth) state.evidenceById := by
    rw [RetainedMonths.store, monthStore, VersionStore.mk.injEq]
    refine ⟨funext fun key => ?_, rfl⟩
    split
    · rename_i heq
      rw [heq]
    · rfl
  have hafter : state'.store = monthStore others incoming.planMonth
      (incoming.mergedWith (state.retained.get? incoming.planMonth) observed.1 pathed.1).slot
      state'.evidenceById := by
    rw [RetainedMonths.store, monthStore, VersionStore.mk.injEq]
    refine ⟨funext fun key => ?_, rfl⟩
    rw [slotOf, h.retained, Dict.get?_set]
    split
    · rename_i heq
      rw [if_pos heq.symm]
      rfl
    · rename_i hne
      rw [if_neg (Ne.symm hne)]
      rfl
  have hobserved : observed.1.Filed (·.securityId) := by
    rw [h.observed_eq]
    exact filed_newObservations _ _
  have hpathed : pathed.1.Filed (·.securityId) := by
    rw [h.pathed_eq]
    exact filed_newPaths _ _
  rw [hbefore, hafter, slot_mergedWith _ hobserved hpathed, slotOf_eq_slotReading,
    HistoricalMonthInput.evidence, monthWrites_append, monthWrites_append]
  exact (trace_of_mergeObservations h.observations).append ((trace_of_mergePaths h.paths).append
    (trace_of_mergeContexts h.contexts (fun month hmonth => (h.context month hmonth).1)
      fun month hmonth => (h.context month hmonth).2))

end Parts

end Months

end StockProfiler.Evaluation
