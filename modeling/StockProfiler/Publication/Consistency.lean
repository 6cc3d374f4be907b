import StockProfiler.Publication.LedgerGrowth

/-!
# Rows that fit each other

Events come from saved cases or correct saved events, reports are projections of events that
users may see, and whatever an attempt holds on to between its transactions is saved.
-/

namespace StockProfiler.Publication

open CandidateSelection Qualification

/-- An event is made from saved rows: of the case of its object, or of the original that it
corrects. It ends with its commit, and a candidate release of it has a complete window. -/
structure Attempted (contracts : HostContracts) (ledger : DecisionLedger)
    (fact : DecisionEventFact) : Prop where
  case_eq : fact.case.businessObjectId = fact.businessObjectId
  original : fact.correctsEventId = none →
    ledger.mapping? fact.businessObjectId = some fact.case ∧
      fact.decisionEventId = fact.case.decisionEventId
  correction : ∀ original, fact.correctsEventId = some original →
    fact.decisionEventId = contracts.correctionEventId fact.businessObjectId original ∧
      ∃ e ∈ ledger.events, e.decisionEventId = original ∧ e.correctsEventId = none ∧
        e.businessObjectId = fact.businessObjectId
  committed : ∃ stage, fact.stageResults.getLast? = some stage ∧
    stage.isStage .businessCommit .succeeded
  window : ∀ command outcome, gatedRelease fact = some (command, outcome) →
    candidateWindowError contracts.calendars command = none
  monitoring : ∀ command outcome, gatedRelease fact = some (command, outcome) →
    fact.result.hasMonitoring = false

/-- The rows of a ledger fit each other. -/
structure Consistent (contracts : HostContracts) (ledger : DecisionLedger) : Prop where
  events_nodup : (ledger.events.map (·.decisionEventId)).Nodup
  attempted : ∀ fact ∈ ledger.events, Attempted contracts ledger fact
  reports : ∀ row ∈ ledger.reports, ∃ fact ∈ ledger.events,
    row = formalReport contracts fact ∧ fact.case.isShadow = false
  reports_nodup : (ledger.reports.map (·.eventId)).Nodup

/-- A report shows an event as it was at one time: with the stages that were saved by then. -/
def DecisionEventFact.ShownBy (contracts : HostContracts) (ledger : DecisionLedger)
    (fact : DecisionEventFact) (report : FormalReport) : Prop :=
  fact ∈ ledger.events ∧ ∃ saved, saved <+: ledger.savedStages fact.decisionEventId ∧
    (formalReport contracts fact).withSavedStages saved = some report

/-- An answer with a report shows an event: an original one, or a correction. -/
def Answer.Shows (contracts : HostContracts) (ledger : DecisionLedger) : Answer → Prop
  | .published report => ∃ fact : DecisionEventFact, fact.correctsEventId = none ∧
      fact.ShownBy contracts ledger report
  | .corrected report => ∃ fact : DecisionEventFact, fact.correctsEventId ≠ none ∧
      fact.ShownBy contracts ledger report
  | _ => True

/-- What an attempt holds on to is saved, or made from saved rows. -/
def Phase.Holds (contracts : HostContracts) (ledger : DecisionLedger) : Phase → Prop
  | .executing case => ledger.mapping? case.businessObjectId = some case
  | .unverified fact _ _ | .unsaved fact _ _ => Attempted contracts ledger fact
  | .publishing fact | .reported fact | .unverifiedReport fact | .closing fact _ _ =>
    fact ∈ ledger.events
  | .answered answer => answer.Shows contracts ledger
  | _ => True

/-- The business object that an attempt is about. -/
def Phase.object? : Phase → Option String
  | .mapped id | .unanswered id | .saved id => some id
  | .executing case => some case.businessObjectId
  | .unverified fact _ _ | .unsaved fact _ _ | .publishing fact | .reported fact
  | .unverifiedReport fact | .closing fact _ _ => some fact.businessObjectId
  | .answered (.published report) | .answered (.corrected report) => some report.businessObjectId
  | .answered (.unpublished id _ _) => some id
  | _ => none

/-- A request is for a business object, under its own identity or one of an earlier build. -/
def Phase.Requests : Phase → String → Prop
  | .requested case, id | .requestedCorrection case, id =>
    id = case.businessObjectId ∨ id ∈ case.recoveryBusinessObjectIds
  | _, _ => False

/-- An attempt is about an object that it was requested for. -/
def Phase.Serves (request : Phase) : Phase → Prop
  | .requested case => request = .requested case
  | .requestedCorrection case => request = .requestedCorrection case
  | phase => ∀ id, phase.object? = some id → request.Requests id

section Consistent

variable {contracts : HostContracts} {ledger later : DecisionLedger}
  {fact other : DecisionEventFact}

theorem Attempted.grows (h : Attempted contracts ledger fact) (hgrows : ledger.Grows later) :
    Attempted contracts later fact := by
  refine { h with original := fun hnone => ?_, correction := fun original hsome => ?_ }
  · obtain ⟨hmapping, hid⟩ := h.original hnone
    exact ⟨hgrows.mapping? hmapping, hid⟩
  · obtain ⟨hid, e, he, hrest⟩ := h.correction original hsome
    exact ⟨hid, e, hgrows.events.subset he, hrest⟩

theorem DecisionEventFact.ShownBy.grows {report : FormalReport}
    (h : fact.ShownBy contracts ledger report) (hgrows : ledger.Grows later) :
    fact.ShownBy contracts later report := by
  obtain ⟨hfact, saved, hsaved, hreport⟩ := h
  exact ⟨hgrows.events.subset hfact, saved, hsaved.trans (hgrows.savedStages _), hreport⟩

theorem Answer.Shows.grows {answer : Answer} (h : answer.Shows contracts ledger)
    (hgrows : ledger.Grows later) : answer.Shows contracts later := by
  cases answer with
  | published report =>
    obtain ⟨fact, hnone, hshown⟩ := h
    exact ⟨fact, hnone, hshown.grows hgrows⟩
  | corrected report =>
    obtain ⟨fact, hsome, hshown⟩ := h
    exact ⟨fact, hsome, hshown.grows hgrows⟩
  | unpublished => trivial
  | correctionFailed => trivial

/-- What an attempt holds on to stays saved, whatever others do. -/
theorem Phase.Holds.grows {phase : Phase} (h : phase.Holds contracts ledger)
    (hgrows : ledger.Grows later) : phase.Holds contracts later := by
  cases phase with
  | executing case => exact hgrows.mapping? h
  | unverified fact _ _ => exact Attempted.grows h hgrows
  | unsaved fact _ _ => exact Attempted.grows h hgrows
  | publishing fact => exact hgrows.events.subset h
  | reported fact => exact hgrows.events.subset h
  | unverifiedReport fact => exact hgrows.events.subset h
  | closing fact _ _ => exact hgrows.events.subset h
  | answered answer => exact Answer.Shows.grows h hgrows
  | requested => trivial
  | mapped => trivial
  | unanswered => trivial
  | requestedCorrection => trivial
  | saved => trivial
  | stopped => trivial

variable (h : Consistent contracts ledger)
include h

theorem Consistent.eq_of_decisionEventId
    (hfact : fact ∈ ledger.events) (hother : other ∈ ledger.events)
    (heq : fact.decisionEventId = other.decisionEventId) : fact = other :=
  List.inj_on_of_nodup_map h.events_nodup hfact hother heq

theorem Consistent.eq_of_original (hfact : fact ∈ ledger.events) (hother : other ∈ ledger.events)
    (hnone : fact.correctsEventId = none) (hnone' : other.correctsEventId = none)
    (heq : fact.businessObjectId = other.businessObjectId) : fact = other := by
  obtain ⟨hmapping, hid⟩ := (h.attempted fact hfact).original hnone
  obtain ⟨hmapping', hid'⟩ := (h.attempted other hother).original hnone'
  rw [heq, hmapping'] at hmapping
  refine h.eq_of_decisionEventId hfact hother ?_
  rw [hid, hid', Option.some.inj hmapping]

theorem Consistent.eq_of_correction (hfact : fact ∈ ledger.events) (hother : other ∈ ledger.events)
    {original : String} (hsome : fact.correctsEventId = some original)
    (hsome' : other.correctsEventId = some original) : fact = other := by
  obtain ⟨hid, e, he, heid, -, hobject⟩ := (h.attempted fact hfact).correction original hsome
  obtain ⟨hid', e', he', heid', -, hobject'⟩ :=
    (h.attempted other hother).correction original hsome'
  rw [h.eq_of_decisionEventId he he' (heid.trans heid'.symm)] at hobject
  refine h.eq_of_decisionEventId hfact hother ?_
  rw [hid, hid', ← hobject, ← hobject']

theorem Consistent.addsStages (hadds : ledger.AddsStages later) : Consistent contracts later where
  events_nodup := hadds.events ▸ h.events_nodup
  attempted := fun fact hfact =>
    (h.attempted fact (hadds.events ▸ hfact)).grows hadds.grows
  reports := by
    rw [hadds.reports, hadds.events]
    exact h.reports
  reports_nodup := hadds.reports ▸ h.reports_nodup

theorem Consistent.addEvent (hnew : ledger.event? fact.decisionEventId = none)
    (hfact : Attempted contracts ledger fact) :
    Consistent contracts { ledger with events := ledger.events ++ [fact] } := by
  have hgrows := ledger.grows_addEvent fact
  refine ⟨?_, fun other hother => ?_, fun row hrow => ?_, h.reports_nodup⟩
  · rw [List.map_append, List.nodup_append]
    refine ⟨h.events_nodup, List.nodup_singleton _, fun a ha b hb heq => ?_⟩
    obtain ⟨e, he, rfl⟩ := List.mem_map.mp ha
    obtain rfl := List.mem_singleton.mp hb
    exact DecisionLedger.event?_eq_none hnew e he heq
  · rcases List.mem_append.mp hother with hother | hother
    · exact (h.attempted other hother).grows hgrows
    · obtain rfl := List.mem_singleton.mp hother
      exact hfact.grows hgrows
  · obtain ⟨other, hother, hrest⟩ := h.reports row hrow
    exact ⟨other, List.mem_append_left _ hother, hrest⟩

/-- The report of an event that users may see, and that has none, fits. -/
theorem Consistent.addReport (hfact : fact ∈ ledger.events) (hshadow : fact.case.isShadow = false)
    (hnew : ∀ row ∈ ledger.reports, row.eventId ≠ fact.decisionEventId) :
    Consistent contracts
      { ledger with reports := ledger.reports ++ [formalReport contracts fact] } := by
  have hgrows := ledger.grows_addReport (formalReport contracts fact)
  refine ⟨h.events_nodup, fun other hother => (h.attempted other hother).grows hgrows,
    fun row hrow => ?_, ?_⟩
  · rcases List.mem_append.mp hrow with hrow | hrow
    · exact h.reports row hrow
    · exact ⟨fact, hfact, List.mem_singleton.mp hrow, hshadow⟩
  · rw [List.map_append, List.nodup_append]
    refine ⟨h.reports_nodup, List.nodup_singleton _, fun a ha b hb heq => ?_⟩
    obtain ⟨row, hrow, rfl⟩ := List.mem_map.mp ha
    obtain rfl := List.mem_singleton.mp hb
    exact hnew row hrow heq

end Consistent

end StockProfiler.Publication
