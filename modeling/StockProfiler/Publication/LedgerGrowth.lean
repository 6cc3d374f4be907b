import StockProfiler.Publication.Attempts

/-!
# The ledger only grows

Every write appends rows, and what a read found stays found. What a visible report shows is
the projection of an event, with stages that are saved.
-/

namespace StockProfiler.Publication

namespace DecisionLedger

variable {case : FrozenDecisionCase}

/-- Rows are only appended. -/
structure Grows (ledger later : DecisionLedger) : Prop where
  mappings : ledger.mappings <+: later.mappings
  events : ledger.events <+: later.events
  stages : ledger.stages <+: later.stages
  reports : ledger.reports <+: later.reports

/-- Rows of stages are appended, and no others. -/
structure AddsStages (ledger later : DecisionLedger) : Prop where
  mappings : later.mappings = ledger.mappings
  events : later.events = ledger.events
  stages : ledger.stages <+: later.stages
  reports : later.reports = ledger.reports

section Growth

variable {ledger later last : DecisionLedger} {id : String}

theorem Grows.refl (ledger : DecisionLedger) : ledger.Grows ledger :=
  ⟨List.prefix_refl _, List.prefix_refl _, List.prefix_refl _, List.prefix_refl _⟩

theorem Grows.trans (h : ledger.Grows later) (h' : later.Grows last) : ledger.Grows last :=
  ⟨h.mappings.trans h'.mappings, h.events.trans h'.events, h.stages.trans h'.stages,
    h.reports.trans h'.reports⟩

theorem grows_addMapping (ledger : DecisionLedger) (case : FrozenDecisionCase) :
    ledger.Grows { ledger with mappings := ledger.mappings ++ [case] } :=
  ⟨List.prefix_append .., List.prefix_refl _, List.prefix_refl _, List.prefix_refl _⟩

theorem grows_addEvent (ledger : DecisionLedger) (fact : DecisionEventFact) :
    ledger.Grows { ledger with events := ledger.events ++ [fact] } :=
  ⟨List.prefix_refl _, List.prefix_append .., List.prefix_refl _, List.prefix_refl _⟩

theorem grows_addReport (ledger : DecisionLedger) (report : FormalReport) :
    ledger.Grows { ledger with reports := ledger.reports ++ [report] } :=
  ⟨List.prefix_refl _, List.prefix_refl _, List.prefix_refl _, List.prefix_append ..⟩

theorem AddsStages.refl (ledger : DecisionLedger) : ledger.AddsStages ledger :=
  ⟨rfl, rfl, List.prefix_refl _, rfl⟩

theorem AddsStages.trans (h : ledger.AddsStages later) (h' : later.AddsStages last) :
    ledger.AddsStages last :=
  ⟨h'.mappings.trans h.mappings, h'.events.trans h.events, h.stages.trans h'.stages,
    h'.reports.trans h.reports⟩

theorem AddsStages.grows (h : ledger.AddsStages later) : ledger.Grows later :=
  ⟨h.mappings ▸ List.prefix_refl _, h.events ▸ List.prefix_refl _, h.stages,
    h.reports ▸ List.prefix_refl _⟩

/-- A saved case stays the one of its business object. -/
theorem Grows.mapping? (h : ledger.Grows later) (hcase : ledger.mapping? id = some case) :
    later.mapping? id = some case := by
  obtain ⟨rest, hrest⟩ := h.mappings
  unfold DecisionLedger.mapping? at hcase ⊢
  rw [← hrest, List.find?_append, hcase]
  rfl

theorem Grows.savedStages (h : ledger.Grows later) (id : String) :
    ledger.savedStages id <+: later.savedStages id :=
  (h.stages.filter _).map _

theorem recordStageResult_stages (ledger : DecisionLedger) (row : StageRow) (allowRepeated : Bool) :
    (ledger.recordStageResult row allowRepeated).stages = ledger.stages ∨
      (ledger.recordStageResult row allowRepeated).stages = ledger.stages ++ [row] := by
  unfold recordStageResult
  split
  · exact .inl rfl
  · exact .inr rfl

theorem addsStages_recordStageResult (ledger : DecisionLedger) (row : StageRow)
    (allowRepeated : Bool) : ledger.AddsStages (ledger.recordStageResult row allowRepeated) := by
  unfold recordStageResult
  split
  · exact .refl ledger
  · exact ⟨rfl, rfl, List.prefix_append .., rfl⟩

theorem recordAll_stages (ledger : DecisionLedger) (rows : List (StageRow × Bool)) :
    ∃ added, (ledger.recordAll rows).stages = ledger.stages ++ added ∧
      ∀ row ∈ added, row ∈ rows.map (·.1) := by
  induction rows generalizing ledger with
  | nil => exact ⟨[], (List.append_nil _).symm, fun row hmem => nomatch hmem⟩
  | cons first rows ih =>
    obtain ⟨added, hstages, hadded⟩ := ih (ledger.recordStageResult first.1 first.2)
    have hrows : ∀ row ∈ added, row ∈ (first :: rows).map (·.1) :=
      fun row hmem => List.mem_cons_of_mem _ (hadded row hmem)
    rcases ledger.recordStageResult_stages first.1 first.2 with hfirst | hfirst
    · rw [hfirst] at hstages
      exact ⟨added, hstages, hrows⟩
    · rw [hfirst, List.append_assoc] at hstages
      refine ⟨[first.1] ++ added, hstages, fun row hmem => ?_⟩
      rcases List.mem_append.mp hmem with hmem | hmem
      · exact List.mem_singleton.mp hmem ▸ List.mem_cons_self ..
      · exact hrows row hmem

theorem addsStages_recordAll (ledger : DecisionLedger) (rows : List (StageRow × Bool)) :
    ledger.AddsStages (ledger.recordAll rows) := by
  induction rows generalizing ledger with
  | nil => exact .refl ledger
  | cons first rows ih =>
    exact (ledger.addsStages_recordStageResult first.1 first.2).trans (ih _)

theorem addsStages_ensureEventStageResults (ledger : DecisionLedger) (fact : DecisionEventFact)
    (clock : StageResult → Instant) :
    ledger.AddsStages (ledger.ensureEventStageResults fact clock) :=
  ledger.addsStages_recordAll _

end Growth

section Reads

variable {fact : DecisionEventFact} {report : FormalReport} {ledger : DecisionLedger}
  {contracts : HostContracts} {id : String}

theorem eq_of_oneOrNone {α : Type*} {rows : List α} {row : α}
    (h : oneOrNone rows = some (some row)) : rows = [row] := by
  match rows with
  | [] => exact nomatch h
  | [only] => rw [Option.some.inj (Option.some.inj h)]
  | _ :: _ :: _ => exact nomatch h

theorem mem_of_oneOrNone {α : Type*} {rows : List α} {row : α}
    (h : oneOrNone rows = some (some row)) : row ∈ rows := by
  rw [eq_of_oneOrNone h]
  exact List.mem_singleton_self row

theorem eq_nil_of_oneOrNone {α : Type*} {rows : List α} (h : oneOrNone rows = some none) :
    rows = [] := by
  match rows with
  | [] => rfl
  | [_] => exact nomatch h
  | _ :: _ :: _ => exact nomatch h

/-- The saved case of an object is one of that object. -/
theorem businessObjectId_of_mapping? (h : ledger.mapping? id = some case) :
    case.businessObjectId = id := by
  have hfound := List.find?_some h
  exact of_decide_eq_true hfound

theorem mem_of_event? (h : ledger.event? id = some fact) :
    fact ∈ ledger.events ∧ fact.decisionEventId = id := by
  have hfound := List.find?_some h
  exact ⟨List.mem_of_find?_eq_some h, of_decide_eq_true hfound⟩

theorem event?_eq_none (h : ledger.event? id = none) :
    ∀ fact ∈ ledger.events, fact.decisionEventId ≠ id := by
  intro fact hmem heq
  exact absurd (decide_eq_true heq) (List.find?_eq_none.mp h fact hmem)

theorem mem_originals :
    fact ∈ ledger.originals id ↔
      fact ∈ ledger.events ∧ fact.businessObjectId = id ∧ fact.correctsEventId = none := by
  unfold originals
  rw [List.mem_filter, decide_eq_true_eq]

theorem mem_corrections :
    fact ∈ ledger.corrections id ↔ fact ∈ ledger.events ∧ fact.correctsEventId = some id := by
  unfold corrections
  rw [List.mem_filter, decide_eq_true_eq]

theorem storedFormalReportFromRow_eq_some {row : FormalReport}
    (h : ledger.storedFormalReportFromRow contracts row = some report) :
    report = row ∧ ∃ fact, ledger.event? row.eventId = some fact ∧
      row = formalReport contracts fact := by
  unfold storedFormalReportFromRow at h
  simp only [bind_eq_some, Option.guard_eq_some', pure_eq_some] at h
  obtain ⟨fact, hfact, _, hrow, rfl⟩ := h
  exact ⟨rfl, fact, hfact, hrow⟩

/-- What a visible report is: the projection of an event whose commit and publication, or closed
gate, are saved, with the saved stages of the event. -/
structure Visible (contracts : HostContracts) (ledger : DecisionLedger) (fact : DecisionEventFact)
    (report : FormalReport) : Prop where
  event : ledger.event? fact.decisionEventId = some fact
  row : formalReport contracts fact ∈ ledger.reports
  committed : ledger.hasConfirmedBusinessCommit fact.decisionEventId
  visible : ledger.hasConfirmedReportVisibility fact.decisionEventId
  stages : (formalReport contracts fact).withSavedStages
    (ledger.savedStages fact.decisionEventId) = some report

/-- A visible report of a row is the one of its event. -/
theorem visible_of_visibleReport {row : FormalReport} (hrow : row ∈ ledger.reports)
    (h : ledger.visibleReport contracts (some row) = some (some report)) :
    ∃ fact, row = formalReport contracts fact ∧ ledger.Visible contracts fact report := by
  unfold visibleReport at h
  dsimp only at h
  split at h
  · exact nomatch h
  · rename_i hconfirmed
    rw [not_or, Bool.not_eq_false, Bool.not_eq_false] at hconfirmed
    simp only [bind_eq_some, pure_eq_some, Option.some.injEq] at h
    obtain ⟨stored, hstored, visible, hvisible, rfl⟩ := h
    obtain ⟨rfl, fact, hfact, rfl⟩ := storedFormalReportFromRow_eq_some hstored
    exact ⟨fact, rfl, hfact, hrow, hconfirmed.1, hconfirmed.2, hvisible⟩

/-- A visible report for an event is the one of that event. -/
theorem visible_of_formalReportForEvent
    (h : ledger.formalReportForEvent contracts id = some (some report)) :
    ∃ fact, fact.decisionEventId = id ∧ ledger.Visible contracts fact report := by
  unfold formalReportForEvent at h
  obtain ⟨row, hrow, hvisible⟩ := bind_eq_some.mp h
  cases row with
  | none => exact nomatch hvisible
  | some row =>
    obtain ⟨hmem, hid⟩ := List.mem_filter.mp (mem_of_oneOrNone hrow)
    obtain ⟨fact, rfl, hreport⟩ := visible_of_visibleReport hmem hvisible
    exact ⟨fact, (of_decide_eq_true hid).1, hreport⟩

/-- The visible original report of an object is the one of an original event of it. -/
theorem visible_of_originalFormalReport
    (h : ledger.originalFormalReport contracts id = some (some report)) :
    ∃ fact other, other ∈ ledger.originals id ∧ other.decisionEventId = fact.decisionEventId ∧
      ledger.Visible contracts fact report := by
  unfold originalFormalReport at h
  obtain ⟨row, hrow, hvisible⟩ := bind_eq_some.mp h
  cases row with
  | none => exact nomatch hvisible
  | some row =>
    obtain ⟨hmem, hid⟩ := List.mem_filter.mp (mem_of_oneOrNone hrow)
    obtain ⟨other, hother, hid⟩ := List.any_eq_true.mp hid
    obtain ⟨fact, rfl, hreport⟩ := visible_of_visibleReport hmem hvisible
    exact ⟨fact, other, hother, of_decide_eq_true hid, hreport⟩

end Reads

end DecisionLedger

end StockProfiler.Publication
