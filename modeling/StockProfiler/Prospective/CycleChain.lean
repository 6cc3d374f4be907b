import StockProfiler.Prospective.CycleLedger

/-!
# Chains of cycle events

The events of a registered cycle are one chain, in whatever order the commands of several clients
are adjudicated and committed. A month is observed once. An incident is first seen open or closed,
and may then be closed once.
-/

namespace StockProfiler.Prospective.Cycle

open DecisionCases (ResultAccessScope Visibility)
open Qualification (DecisionCaseVersionBundle)

variable {incidents : Dict String (String × ShadowIncident)} {α : Type}

/-- An incident as an observation or a fact tells of it. -/
structure IncidentSighting where
  planMonth : String
  incident : ShadowIncident
  /-- What a fact does to it; an observation has no operation. -/
  operation : Option IncidentOperation

/-- The incidents that an entry tells of. -/
def CycleEntry.sightings : CycleEntry → List IncidentSighting
  | .observation row => row.incidents.map fun incident => ⟨row.planMonth, incident, none⟩
  | .incident fact => [⟨fact.planMonth, fact.toShadowIncident, some fact.operation⟩]
  | _ => []

/-- The incidents that a command tells of. -/
def CycleCommand.sightings (command : CycleCommand) : List IncidentSighting :=
  match command.operation with
  | .append _ _ entry => entry.sightings
  | .register _ => []

/-- A sighting closes an incident that was seen open, of the same month, kind and time. -/
structure IncidentSighting.Closes (first next : IncidentSighting) : Prop where
  planMonth : next.planMonth = first.planMonth
  kind : next.incident.kind = first.incident.kind
  occurredAt : next.incident.occurredAt = first.incident.occurredAt
  isOpen : first.incident.closedAt = none
  closed : next.incident.closedAt ≠ none
  operation : next.operation = some .close

/-- The sightings of an incident in a chain of events. -/
def incidentSightings (chain : List (CycleEvent α)) (incidentId : String) :
    List IncidentSighting :=
  (chain.flatMap (·.case.command.sightings)).filter (·.incident.incidentId = incidentId)

/-- Assigned incidents are the last ones of their identities, and recorded ones are new. -/
theorem assigned_of_foldlM {entries : List (Bool × String × ShadowIncident)}
    (h : entries.foldlM assignIncident [] = .ok incidents) :
    (∀ incidentId, incidents.get? incidentId =
      ((entries.map (·.2)).filter (·.2.incidentId = incidentId)).getLast?) ∧
    entries.Pairwise fun a b => b.1 = true → a.2.2.incidentId ≠ b.2.2.incidentId := by
  induction entries using List.reverseRecOn generalizing incidents with
  | nil =>
    cases h
    exact ⟨fun _ => rfl, .nil⟩
  | append_singleton entries entry ih =>
    rw [List.foldlM_append] at h
    obtain ⟨before, hbefore, h⟩ := bind_eq_ok.mp h
    obtain ⟨hget, hnew⟩ := ih hbefore
    rw [List.foldlM_cons] at h
    obtain ⟨next, hnext, h⟩ := bind_eq_ok.mp h
    cases h
    obtain ⟨_, hfresh, h⟩ := bind_eq_ok.mp hnext
    cases h
    rw [require_eq_ok] at hfresh
    refine ⟨fun incidentId => ?_, List.pairwise_append.mpr ⟨hnew, List.pairwise_singleton .., ?_⟩⟩
    · rw [Dict.get?_set, hget, List.map_append, List.map_singleton, List.filter_append]
      by_cases hid : entry.2.2.incidentId = incidentId
      · have hlast : [entry.2].filter (·.2.incidentId = incidentId) = [entry.2] :=
          List.filter_eq_self.mpr fun item hitem =>
            decide_eq_true (List.mem_singleton.mp hitem ▸ hid)
        rw [if_pos hid, hlast, List.getLast?_concat]
      · have hnone : [entry.2].filter (·.2.incidentId = incidentId) = [] :=
          List.filter_eq_nil_iff.mpr fun item hitem heq =>
            hid (List.mem_singleton.mp hitem ▸ of_decide_eq_true heq)
        rw [if_neg hid, hnone, List.append_nil]
    · intro earlier hearlier last hlast hrecorded heq
      obtain rfl := List.mem_singleton.mp hlast
      refine hfresh ⟨hrecorded, ?_⟩
      rw [hget, List.getLast?_isSome]
      refine List.ne_nil_of_mem (List.mem_filter.mpr ⟨List.mem_map_of_mem hearlier, ?_⟩)
      exact decide_eq_true heq

/-- A sighting as it is assigned. -/
def IncidentSighting.known (sighting : IncidentSighting) : String × ShadowIncident :=
  (sighting.planMonth, sighting.incident)

/-- The original observations of a chain. -/
def observedRows (chain : List (CycleEvent α)) : List MonthlyObservation :=
  chain.filterMap (·.case.command.observation?)

/-- The incident facts of a chain. -/
def incidentFacts (chain : List (CycleEvent α)) : List IncidentFact :=
  chain.filterMap (·.case.command.incidentFact?)

/-- The months of a chain that observes each of them once are its observations. -/
theorem cycleObservations_eq {chain : List (CycleEvent α)}
    (h : ((observedRows chain).map (·.planMonth)).Nodup) :
    cycleObservations chain = (observedRows chain).map fun row => (row.planMonth, row) := by
  refine Dict.ofLast_of_nodup ?_
  rw [List.map_map]
  exact h

/-- Observed incidents are the sightings of observations. -/
theorem observedIncidents_eq (chain : List (CycleEvent α)) :
    observedIncidents ((observedRows chain).map fun row => (row.planMonth, row)) =
      ((chain.flatMap (·.case.command.sightings)).filter (·.operation.isNone)).map
        fun sighting => (true, sighting.known) := by
  induction chain with
  | nil => rfl
  | cons e chain ih =>
    rw [List.flatMap_cons, List.filter_append, List.map_append, ← ih, observedRows,
      List.filterMap_cons]
    unfold CycleCommand.observation? CycleCommand.sightings
    cases e.case.command.operation with
    | register registration => rfl
    | append registrationEventId previousEventId entry =>
      cases entry with
      | observation row =>
        have hfilter : (row.incidents.map fun incident =>
            (⟨row.planMonth, incident, none⟩ : IncidentSighting)).filter (·.operation.isNone) =
            row.incidents.map fun incident => ⟨row.planMonth, incident, none⟩ :=
          List.filter_eq_self.mpr fun sighting hmem => by
            obtain ⟨incident, -, rfl⟩ := List.mem_map.mp hmem
            rfl
        dsimp only [CycleEntry.sightings]
        rw [hfilter, List.map_map, List.map_cons, observedIncidents, List.flatMap_cons]
        rfl
      | incident fact => rfl
      | review => rfl
      | check formalNodeMonth => rfl

/-- The facts of a chain are the sightings with an operation. -/
theorem factIncidents_eq (chain : List (CycleEvent α)) :
    factIncidents (incidentFacts chain) =
      ((chain.flatMap (·.case.command.sightings)).filter (·.operation.isSome)).map
        fun sighting => (decide (sighting.operation = some .record), sighting.known) := by
  induction chain with
  | nil => rfl
  | cons e chain ih =>
    rw [List.flatMap_cons, List.filter_append, List.map_append, ← ih, incidentFacts,
      List.filterMap_cons]
    unfold CycleCommand.incidentFact? CycleCommand.sightings
    cases e.case.command.operation with
    | register registration => rfl
    | append registrationEventId previousEventId entry =>
      cases entry with
      | observation row =>
        have hfilter : (row.incidents.map fun incident =>
            (⟨row.planMonth, incident, none⟩ : IncidentSighting)).filter (·.operation.isSome) =
            [] :=
          List.filter_eq_nil_iff.mpr fun sighting hmem => by
            obtain ⟨incident, -, rfl⟩ := List.mem_map.mp hmem
            exact Bool.false_ne_true
        dsimp only [CycleEntry.sightings]
        rw [hfilter]
        rfl
      | incident fact =>
        dsimp only [CycleEntry.sightings]
        rw [factIncidents, List.map_cons]
        simp only [IncidentSighting.known, Option.isSome_some, List.filter_cons_of_pos,
          List.filter_nil, List.map_cons, List.map_nil, Option.some.injEq, List.singleton_append]
        rfl
      | review => rfl
      | check formalNodeMonth => rfl

/-- The sightings of one incident: it is first seen by an observation or recorded, and closed at
most once. -/
structure Tracked (sightings : List IncidentSighting) : Prop where
  closes : sightings.Pairwise IncidentSighting.Closes
  opened : ∀ sighting ∈ sightings.head?, sighting.operation ≠ some .close

/-- What is known of an incident after all facts, from its sightings. -/
def knownOf (sightings : List IncidentSighting) : Option (String × ShadowIncident) :=
  ((sightings.filter (·.operation.isNone) ++ sightings.filter (·.operation.isSome)).map
    IncidentSighting.known).getLast?

/-- What is known of an incident that was never seen is nothing. -/
theorem eq_nil_of_knownOf {sightings : List IncidentSighting} (h : knownOf sightings = none) :
    sightings = [] := by
  rw [knownOf, List.getLast?_eq_none_iff, List.map_eq_nil_iff, List.append_eq_nil_iff] at h
  refine List.eq_nil_iff_forall_not_mem.mpr fun sighting hmem => ?_
  cases hoperation : sighting.operation with
  | none =>
    have hnone : sighting ∈ sightings.filter (·.operation.isNone) :=
      List.mem_filter.mpr ⟨hmem, by rw [hoperation]; rfl⟩
    rw [h.1] at hnone
    exact nomatch hnone
  | some operation =>
    have hsome : sighting ∈ sightings.filter (·.operation.isSome) :=
      List.mem_filter.mpr ⟨hmem, by rw [hoperation]; rfl⟩
    rw [h.2] at hsome
    exact nomatch hsome

/-- An open incident has been sighted once. -/
theorem Tracked.eq_singleton {sightings : List IncidentSighting} (h : Tracked sightings)
    {original : String × ShadowIncident} (hknown : knownOf sightings = some original)
    (hopen : original.2.closedAt = none) :
    ∃ sighting, sightings = [sighting] ∧ sighting.known = original := by
  match sightings, h.closes with
  | [], _ => exact nomatch hknown
  | [sighting], _ =>
    refine ⟨sighting, rfl, ?_⟩
    unfold knownOf at hknown
    cases hoperation : sighting.operation <;> simp [hoperation] at hknown <;> exact hknown
  | first :: next :: rest, hcloses =>
    obtain ⟨hfirst, hcloses⟩ := List.pairwise_cons.mp hcloses
    have hnext := hfirst next (List.mem_cons_self ..)
    have hrest : rest = [] := by
      refine List.eq_nil_iff_forall_not_mem.mpr fun later hlater => ?_
      exact hnext.closed ((List.pairwise_cons.mp hcloses).1 later hlater).isOpen
    subst hrest
    have hlast : knownOf [first, next] = some next.known := by
      unfold knownOf
      have hsome : next.operation.isSome = true := by rw [hnext.operation]; rfl
      have hself : [next].filter (·.operation.isSome) = [next] :=
        List.filter_eq_self.mpr fun sighting hmem => List.mem_singleton.mp hmem ▸ hsome
      have hfilter : [first, next].filter (·.operation.isSome) =
          [first].filter (·.operation.isSome) ++ [next] := by
        rw [← List.singleton_append, List.filter_append, hself]
      rw [hfilter, ← List.append_assoc, List.map_append, List.map_singleton, List.getLast?_concat]
    rw [hlast] at hknown
    cases hknown
    exact absurd hopen hnext.closed

/-- An incident is tracked further by a sighting that closes it. -/
theorem Tracked.close {first next : IncidentSighting} (h : Tracked [first])
    (hcloses : first.Closes next) : Tracked ([first] ++ [next]) where
  closes := List.pairwise_append.mpr ⟨h.closes, List.pairwise_singleton .., fun _ ha _ hb =>
    List.mem_singleton.mp ha ▸ List.mem_singleton.mp hb ▸ hcloses⟩
  opened := h.opened

/-- An incident that is seen for the first time is tracked. -/
theorem Tracked.single {sighting : IncidentSighting} (h : sighting.operation ≠ some .close) :
    Tracked [sighting] where
  closes := List.pairwise_singleton ..
  opened := fun _ hmem => Option.some.inj hmem ▸ h

/-- The observed months that an entry leaves. -/
def observationsAfter (prior : List (CycleEvent α)) : CycleEntry → Dict String MonthlyObservation
  | .observation row => (cycleObservations prior).set row.planMonth row
  | _ => cycleObservations prior

/-- What an accepted entry was checked for. -/
structure EntryAccepted (case : CycleCase) (prior : List (CycleEvent α))
    (previousEventId : Option String) (entry : CycleEntry) (report : CycleReport α) : Prop where
  lineage : previousEventId = prior.getLast?.map (·.decisionEventId)
  version : report.reportVersion = prior.length + 1
  cutoff : ∀ previous ∈ prior.getLast?, previous.case.command.cutoffAt ≤ case.command.cutoffAt
  month : ∀ row, entry = .observation row → (cycleObservations prior).get? row.planMonth = none
  incidents : ∃ incidents,
    retainedIncidents (observationsAfter prior entry) (incidentFacts prior) = .ok incidents ∧
      ∀ fact, entry = .incident fact → ∃ registration,
        checkIncident registration case.command.cutoffAt incidents fact = .ok ()

section Accepted

variable {case : CycleCase} {ledger : List (CycleEvent α)} {accounts : Except String α}
  {registrationEventId : String} {previousEventId : Option String} {entry : CycleEntry}
  {report : CycleReport α}

/-- An entry is accepted on a saved registration, and after its checks. -/
theorem accepted_of_assessEntry
    (h : assessEntry case ledger accounts registrationEventId previousEventId entry = .ok report) :
    (∃ registration, savedRegistration case ledger registrationEventId = some registration) ∧
      EntryAccepted case (cycleEvents (prospectiveHistory ledger case.accessScope)
        registrationEventId) previousEventId entry report := by
  unfold assessEntry at h
  obtain ⟨registration, hregistration, h⟩ := bind_eq_ok.mp h
  obtain ⟨_, -, h⟩ := bind_eq_ok.mp h
  obtain ⟨_, hlineage, h⟩ := bind_eq_ok.mp h
  obtain ⟨_, hcutoff, h⟩ := bind_eq_ok.mp h
  obtain ⟨_, -, h⟩ := bind_eq_ok.mp h
  obtain ⟨observations, hobservations, h⟩ := bind_eq_ok.mp h
  obtain ⟨incidents, hincidents, h⟩ := bind_eq_ok.mp h
  obtain ⟨_, hfact, h⟩ := bind_eq_ok.mp h
  obtain ⟨_, -, h⟩ := bind_eq_ok.mp h
  cases h
  have hmonth : observations = observationsAfter (cycleEvents (prospectiveHistory ledger
      case.accessScope) registrationEventId) entry ∧ ∀ row, entry = .observation row →
        (cycleObservations (cycleEvents (prospectiveHistory ledger case.accessScope)
          registrationEventId)).get? row.planMonth = none := by
    cases entry with
    | observation row =>
      obtain ⟨_, hmonth, hobservations⟩ := bind_eq_ok.mp hobservations
      obtain ⟨_, -, hobservations⟩ := bind_eq_ok.mp hobservations
      cases hobservations
      refine ⟨rfl, fun row' heq => ?_⟩
      obtain rfl := CycleEntry.observation.inj heq
      exact require_eq_ok.mp hmonth
    | incident => exact ⟨(Except.ok.inj hobservations).symm, nofun⟩
    | review => exact ⟨(Except.ok.inj hobservations).symm, nofun⟩
    | check => exact ⟨(Except.ok.inj hobservations).symm, nofun⟩
  refine ⟨⟨registration, known_eq_ok.mp hregistration⟩, require_eq_ok.mp hlineage, rfl,
    fun previous hprevious => ?_, hmonth.2, incidents, hmonth.1 ▸ hincidents, ?_⟩
  · exact (le_max_left _ _).trans (require_eq_ok.mp hcutoff previous hprevious)
  · rintro fact rfl
    exact ⟨registration, hfact⟩

end Accepted

/-- The events of a cycle are one chain with cutoffs that do not decrease; a month is observed
once, and incidents are tracked. -/
structure CycleSound (chain : List (CycleEvent α)) : Prop where
  lineage : Explained (fun earlier event =>
    event.case.command.previousEventId? = earlier.getLast?.map (·.decisionEventId) ∧
      event.report.reportVersion = earlier.length + 1) chain
  cutoffs : chain.Pairwise fun a b => a.case.command.cutoffAt ≤ b.case.command.cutoffAt
  months : ((observedRows chain).map (·.planMonth)).Nodup
  incidents : ∀ incidentId, Tracked (incidentSightings chain incidentId)

section Sound

variable {row : MonthlyObservation} {chain : List (CycleEvent α)}

theorem cycleSound_nil : CycleSound ([] : List (CycleEvent α)) where
  lineage := explained_nil
  cutoffs := .nil
  months := List.nodup_nil
  incidents := fun _ => ⟨.nil, fun _ hmem => nomatch hmem⟩

theorem filter_known (sightings : List IncidentSighting) (keep : IncidentSighting → Bool)
    (incidentId : String) :
    ((sightings.filter keep).map IncidentSighting.known).filter (·.2.incidentId = incidentId) =
      ((sightings.filter (·.incident.incidentId = incidentId)).filter keep).map
        IncidentSighting.known := by
  rw [List.filter_map, List.filter_filter, List.filter_filter]
  congr 2
  funext sighting
  exact Bool.and_comm _ _

theorem get?_retainedIncidents (hmonths : ((observedRows chain).map (·.planMonth)).Nodup)
    (h : retainedIncidents (cycleObservations chain) (incidentFacts chain) = .ok incidents)
    (incidentId : String) :
    incidents.get? incidentId = knownOf (incidentSightings chain incidentId) := by
  rw [retainedIncidents, cycleObservations_eq hmonths, observedIncidents_eq, factIncidents_eq] at h
  rw [(assigned_of_foldlM h).1, List.map_append, List.map_map, List.map_map, List.filter_append,
    knownOf, List.map_append]
  exact congrArg List.getLast? (congrArg₂ _ (filter_known _ _ _) (filter_known _ _ _))

theorem incidentSightings_snoc (event : CycleEvent α) (incidentId : String) :
    incidentSightings (chain ++ [event]) incidentId = incidentSightings chain incidentId ++
      event.case.command.sightings.filter (·.incident.incidentId = incidentId) := by
  rw [incidentSightings, List.flatMap_append, List.filter_append, List.flatMap_singleton]
  rfl

theorem observedRows_snoc (event : CycleEvent α) : observedRows (chain ++ [event]) =
    observedRows chain ++ event.case.command.observation?.toList := by
  rw [observedRows, List.filterMap_append, ← observedRows]
  cases hobservation : event.case.command.observation? with
  | none => simp only [List.filterMap_cons, List.filterMap_nil, hobservation, Option.toList_none]
  | some row =>
    simp only [List.filterMap_cons, List.filterMap_nil, hobservation, Option.toList_some]

/-- The incidents of an accepted observation were not seen before, and are different. -/
theorem unseen_of_observed (h : CycleSound chain)
    (hmonth : (cycleObservations chain).get? row.planMonth = none)
    (hincidents : retainedIncidents (observationsAfter chain (.observation row))
      (incidentFacts chain) = .ok incidents) :
    (∀ incident ∈ row.incidents, incidentSightings chain incident.incidentId = []) ∧
      row.incidents.Pairwise fun a b => a.incidentId ≠ b.incidentId := by
  rw [retainedIncidents, observationsAfter, Dict.set_of_get?_eq_none hmonth,
    cycleObservations_eq h.months] at hincidents
  have hnew := (assigned_of_foldlM hincidents).2
  have hsplit : observedIncidents (((observedRows chain).map fun row => (row.planMonth, row)) ++
      [(row.planMonth, row)]) = observedIncidents ((observedRows chain).map fun row =>
        (row.planMonth, row)) ++ row.incidents.map fun incident =>
          (true, row.planMonth, incident) := by
    rw [observedIncidents, List.flatMap_append, List.flatMap_singleton]
    rfl
  rw [hsplit, observedIncidents_eq, factIncidents_eq, List.append_assoc] at hnew
  obtain ⟨-, hnew, hbefore⟩ := List.pairwise_append.mp hnew
  obtain ⟨hrow, -, hafter⟩ := List.pairwise_append.mp hnew
  refine ⟨fun incident hincident => ?_, (List.pairwise_map.mp hrow).imp fun hne => hne rfl⟩
  have hmem := List.mem_map_of_mem (f := fun incident => (true, row.planMonth, incident)) hincident
  have htracked := h.incidents incident.incidentId
  by_contra hseen
  obtain ⟨first, rest, hfirst⟩ := List.exists_cons_of_ne_nil hseen
  have hopened := htracked.opened first (by rw [hfirst]; rfl)
  have hin : first ∈ incidentSightings chain incident.incidentId := by
    rw [hfirst]
    exact List.mem_cons_self ..
  obtain ⟨hin, hid⟩ := List.mem_filter.mp hin
  have hid := of_decide_eq_true hid
  cases hoperation : first.operation with
  | none =>
    refine hbefore (true, first.known)
      (List.mem_map.mpr ⟨first, List.mem_filter.mpr ⟨hin, ?_⟩, rfl⟩)
      _ (List.mem_append_left _ hmem) rfl hid
    rw [hoperation]
    rfl
  | some operation =>
    cases operation with
    | close => exact hopened hoperation
    | record =>
      refine hafter _ hmem (true, first.known) (List.mem_map.mpr ⟨first,
        List.mem_filter.mpr ⟨hin, ?_⟩, ?_⟩) rfl hid.symm
      · rw [hoperation]
        rfl
      · rw [hoperation]
        rfl

/-- Incidents stay tracked after an accepted observation, -/
theorem tracked_observation (h : CycleSound chain)
    (hmonth : (cycleObservations chain).get? row.planMonth = none)
    (hincidents : retainedIncidents (observationsAfter chain (.observation row))
      (incidentFacts chain) = .ok incidents) (incidentId : String) :
    Tracked (incidentSightings chain incidentId ++
      (CycleEntry.observation row).sightings.filter (·.incident.incidentId = incidentId)) := by
  obtain ⟨hunseen, hdistinct⟩ := unseen_of_observed h hmonth hincidents
  rw [CycleEntry.sightings]
  by_cases hseen : ∃ incident ∈ row.incidents, incident.incidentId = incidentId
  · obtain ⟨incident, hincident, rfl⟩ := hseen
    have hmem : (⟨row.planMonth, incident, none⟩ : IncidentSighting) ∈ row.incidents.map
        fun incident => (⟨row.planMonth, incident, none⟩ : IncidentSighting) :=
      List.mem_map_of_mem hincident
    have hone := filter_eq_singleton
      (fun sighting : IncidentSighting => sighting.incident.incidentId)
      (List.pairwise_map.mpr hdistinct) hmem
    rw [hunseen incident hincident, List.nil_append, hone]
    exact .single nofun
  · have hnone : (row.incidents.map fun incident =>
        (⟨row.planMonth, incident, none⟩ : IncidentSighting)).filter
          (·.incident.incidentId = incidentId) = [] := by
      refine List.filter_eq_nil_iff.mpr fun sighting hmem heq => hseen ?_
      obtain ⟨incident, hincident, rfl⟩ := List.mem_map.mp hmem
      exact ⟨incident, hincident, of_decide_eq_true heq⟩
    rw [hnone, List.append_nil]
    exact h.incidents incidentId

/-- and after an accepted fact: one that is recorded was not seen, and one that is closed was seen
open. -/
theorem tracked_incident {sightings : List IncidentSighting} (h : Tracked sightings)
    {registration : CycleRegistration} {cutoffAt : Instant} {fact : IncidentFact}
    (hknown : incidents.get? fact.incidentId = knownOf sightings)
    (hcheck : checkIncident registration cutoffAt incidents fact = .ok ()) :
    Tracked (sightings ++ [⟨fact.planMonth, fact.toShadowIncident, some fact.operation⟩]) := by
  obtain ⟨_, -, hcheck⟩ := bind_eq_ok.mp hcheck
  obtain ⟨_, -, hcheck⟩ := bind_eq_ok.mp hcheck
  have hcloses := fact.closes_iff
  cases hoperation : fact.operation with
  | record =>
    rw [hoperation] at hcheck
    have hnone := require_eq_ok.mp hcheck
    rw [hknown] at hnone
    rw [eq_nil_of_knownOf hnone, List.nil_append]
    exact .single nofun
  | close =>
    rw [hoperation] at hcheck hcloses
    obtain ⟨original, horiginal, hmonth, hkind, hoccurred, hopen⟩ := require_eq_ok.mp hcheck
    rw [hknown] at horiginal
    obtain ⟨first, rfl, rfl⟩ := h.eq_singleton horiginal hopen
    exact h.close ⟨hmonth.symm, hkind.symm, hoccurred.symm, hopen,
      Option.isSome_iff_ne_none.mp (hcloses.mp rfl), rfl⟩

/-- An accepted entry keeps the sightings of every incident tracked. -/
theorem tracked_snoc (h : CycleSound chain) {event : CycleEvent α} {registrationEventId : String}
    {previousEventId : Option String} {entry : CycleEntry}
    (hoperation : event.case.command.operation = .append registrationEventId previousEventId entry)
    (haccepted : EntryAccepted event.case chain previousEventId entry event.report)
    (incidentId : String) : Tracked (incidentSightings (chain ++ [event]) incidentId) := by
  have htracked := h.incidents incidentId
  have hsightings : event.case.command.sightings = entry.sightings := by
    rw [CycleCommand.sightings, hoperation]
  rw [incidentSightings_snoc, hsightings]
  obtain ⟨incidents, hincidents, hfact⟩ := haccepted.incidents
  cases entry with
  | observation row =>
    exact tracked_observation h (haccepted.month row rfl) hincidents incidentId
  | incident fact =>
    by_cases hid : fact.incidentId = incidentId
    · have hself : (CycleEntry.incident fact).sightings.filter
          (·.incident.incidentId = incidentId) =
          [⟨fact.planMonth, fact.toShadowIncident, some fact.operation⟩] :=
        List.filter_eq_self.mpr fun sighting hmem => by
          rw [List.mem_singleton.mp hmem]
          exact decide_eq_true hid
      obtain ⟨registration, hcheck⟩ := hfact fact rfl
      rw [hself]
      refine tracked_incident htracked ?_ hcheck
      rw [hid]
      exact get?_retainedIncidents h.months hincidents incidentId
    · have hnone : (CycleEntry.incident fact).sightings.filter
          (·.incident.incidentId = incidentId) = [] :=
        List.filter_eq_nil_iff.mpr fun sighting hmem heq => by
          rw [List.mem_singleton.mp hmem] at heq
          exact hid (of_decide_eq_true heq)
      rw [hnone, List.append_nil]
      exact htracked
  | review =>
    have hnone : CycleEntry.review.sightings = [] := rfl
    rw [hnone, List.filter_nil, List.append_nil]
    exact htracked
  | check formalNodeMonth =>
    have hnone : (CycleEntry.check formalNodeMonth).sightings = [] := rfl
    rw [hnone, List.filter_nil, List.append_nil]
    exact htracked

/-- An accepted entry keeps its chain sound. -/
theorem CycleSound.snoc (h : CycleSound chain) {event : CycleEvent α} {registrationEventId : String}
    {previousEventId : Option String} {entry : CycleEntry}
    (hoperation : event.case.command.operation = .append registrationEventId previousEventId entry)
    (haccepted : EntryAccepted event.case chain previousEventId entry event.report) :
    CycleSound (chain ++ [event]) where
  lineage := by
    refine explained_snoc.mpr ⟨h.lineage, ?_, haccepted.version⟩
    rw [CycleCommand.previousEventId?, hoperation]
    exact haccepted.lineage
  cutoffs := by
    refine List.pairwise_append.mpr ⟨h.cutoffs, List.pairwise_singleton .., fun a ha b hb => ?_⟩
    obtain rfl := List.mem_singleton.mp hb
    rcases List.eq_nil_or_concat chain with rfl | ⟨front, last, rfl⟩
    · exact nomatch ha
    · rw [List.concat_eq_append] at ha h haccepted
      have hlast := haccepted.cutoff last (by rw [List.getLast?_concat]; rfl)
      rcases List.mem_append.mp ha with ha | ha
      · exact ((List.pairwise_append.mp h.cutoffs).2.2 a ha last
          (List.mem_singleton_self _)).trans hlast
      · exact List.mem_singleton.mp ha ▸ hlast
  months := by
    rw [observedRows_snoc, List.map_append]
    cases entry with
    | observation row =>
      have hobservation : event.case.command.observation? = some row := by
        rw [CycleCommand.observation?, hoperation]
      rw [hobservation]
      refine List.nodup_append.mpr ⟨h.months, List.nodup_singleton _, fun a ha b hb heq => ?_⟩
      obtain rfl := List.mem_singleton.mp hb
      have hmonth := haccepted.month row rfl
      rw [cycleObservations_eq h.months] at hmonth
      obtain ⟨other, hother, hplan⟩ := List.mem_map.mp ha
      have hsome := Dict.isSome_get?_of_mem (List.mem_map.mpr ⟨other, hother, rfl⟩ :
        (other.planMonth, other) ∈ (observedRows chain).map fun row => (row.planMonth, row))
      rw [hplan, heq, hmonth] at hsome
      exact nomatch hsome
    | _ =>
      have hobservation : event.case.command.observation? = none := by
        rw [CycleCommand.observation?, hoperation]
      rw [hobservation, Option.toList_none, List.map_nil, List.append_nil]
      exact h.months
  incidents := tracked_snoc h hoperation haccepted

end Sound

/-- Events have identities of their own. Those of one registration are one sound chain in its
scope, after it. Registrations of one scope lock different bundles, and populations that are
scientifically different. -/
structure CyclesSound (ledger : List (CycleEvent α)) : Prop where
  identities : (ledger.map (·.decisionEventId)).Nodup
  registered : Explained (fun earlier event =>
    ∀ registrationEventId ∈ event.case.command.registrationEventId?, ∃ source ∈ earlier,
      source.decisionEventId = registrationEventId ∧ source.case.command.registration? ≠ none ∧
        source.case.accessScope.sameScopeAs event.case.accessScope = true) ledger
  cycles : ∀ registrationEventId, CycleSound (cycleEvents ledger registrationEventId)
  locks : ledger.Pairwise fun event next =>
    event.case.accessScope.sameScopeAs next.case.accessScope = true →
      ∀ registration ∈ event.case.command.registration?,
        ∀ other ∈ next.case.command.registration?,
          registration.sourceVersionBundle ≠ other.sourceVersionBundle ∧
            other.sameScientificPopulationAs registration = false

section Runs

variable {case : CycleCase} {ledger : List (CycleEvent α)} {input : CycleInput α}
  {event : CycleEvent α}

/-- A committed event has a new identity, and the report of its adjudication. -/
theorem assessed_of_commitCycle (h : commitCycle ledger input = some event) :
    (∀ earlier ∈ ledger, earlier.decisionEventId ≠ event.decisionEventId) ∧
      assessProspective event.case ledger input.accounts = .ok event.report := by
  unfold commitCycle at h
  split at h
  · exact nomatch h
  · rename_i hnew
    split at h
    · exact nomatch h
    · rename_i report hreport
      cases h
      exact ⟨fun earlier hearlier heq => hnew ⟨earlier, hearlier, heq⟩, hreport⟩

/-- A saved registration is an event of the same scope. -/
theorem source_of_savedRegistration {registrationEventId : String}
    {registration : CycleRegistration}
    (h : savedRegistration case ledger registrationEventId = some registration) :
    ∃ source ∈ ledger, source.decisionEventId = registrationEventId ∧
      source.case.command.registration? = some registration ∧
        source.case.accessScope.sameScopeAs case.accessScope = true := by
  unfold savedRegistration at h
  obtain ⟨source, hsource, h⟩ := bind_eq_some.mp h
  obtain ⟨saved, hsaved, h⟩ := bind_eq_some.mp h
  obtain ⟨_, hguard, h⟩ := bind_eq_some.mp h
  cases h
  unfold guard at hguard
  split at hguard
  case isFalse => exact nomatch hguard
  rename_i hscope
  obtain ⟨hid, -⟩ := List.find?_eq_some_iff_append.mp hsource
  exact ⟨source, List.mem_of_find?_eq_some hsource, of_decide_eq_true hid, hsaved, hscope.1⟩

/-- The events of a registration are in the history of its scope. -/
theorem CyclesSound.cycleEvents_history (h : CyclesSound ledger) {registrationEventId : String}
    {registration : CycleRegistration}
    (hsaved : savedRegistration case ledger registrationEventId = some registration) :
    cycleEvents (prospectiveHistory ledger case.accessScope) registrationEventId =
      cycleEvents ledger registrationEventId := by
  rw [cycleEvents, prospectiveHistory, List.filter_filter, cycleEvents]
  refine List.filter_congr fun event hevent => ?_
  by_cases hid : event.case.command.registrationEventId? = some registrationEventId
  · obtain ⟨source, hsource, hsourceId, -, hscope⟩ := source_of_savedRegistration hsaved
    obtain ⟨earlier, hgrown, hregistered⟩ := h.registered.of_mem hevent
    obtain ⟨other, hother, hotherId, -, hotherScope⟩ := hregistered registrationEventId hid
    obtain rfl : source = other :=
      List.inj_on_of_nodup_map h.identities hsource (hgrown.subset hother)
        (hsourceId.trans hotherId.symm)
    have hsame := ResultAccessScope.sameScopeAs_trans
      (ResultAccessScope.sameScopeAs_symm hotherScope) hscope
    rw [hsame, Bool.and_true]
  · rw [decide_eq_false hid, Bool.false_and]

/-- A registration is committed after its checks against the history of its scope. -/
theorem lock_of_assess {accounts : Except String α} {report : CycleReport α}
    {registration : CycleRegistration}
    (hregistration : case.command.registration? = some registration)
    (h : assessProspective case ledger accounts = .ok report) :
    ∀ event ∈ prospectiveHistory ledger case.accessScope,
      ∀ other ∈ event.case.command.registration?,
        other.sourceVersionBundle ≠ registration.sourceVersionBundle ∧
          registration.sameScientificPopulationAs other = false := by
  unfold assessProspective at h
  split at h
  · exact nomatch h
  · unfold CycleCommand.registration? at hregistration
    split at h
    · rename_i hoperation
      rw [hoperation] at hregistration
      cases hregistration
      obtain ⟨_, -, h⟩ := bind_eq_ok.mp h
      obtain ⟨_, hbundle, h⟩ := bind_eq_ok.mp h
      obtain ⟨_, hpopulation, -⟩ := bind_eq_ok.mp h
      exact fun event hevent other hother => ⟨require_eq_ok.mp hbundle event hevent other hother,
        require_eq_ok.mp hpopulation event hevent other hother⟩
    · rename_i hoperation
      rw [hoperation] at hregistration
      exact nomatch hregistration

/-- An entry is committed after its checks against the chain of its registration. -/
theorem CyclesSound.accepted (h : CyclesSound ledger) {accounts : Except String α}
    {registrationEventId : String} {previousEventId : Option String} {entry : CycleEntry}
    (hoperation : event.case.command.operation = .append registrationEventId previousEventId entry)
    (hassessed : assessProspective event.case ledger accounts = .ok event.report) :
    (∃ source ∈ ledger, source.decisionEventId = registrationEventId ∧
      source.case.command.registration? ≠ none ∧
        source.case.accessScope.sameScopeAs event.case.accessScope = true) ∧
      EntryAccepted event.case (cycleEvents ledger registrationEventId) previousEventId entry
        event.report := by
  unfold assessProspective at hassessed
  split at hassessed
  · exact nomatch hassessed
  · rw [hoperation] at hassessed
    obtain ⟨⟨registration, hsaved⟩, haccepted⟩ := accepted_of_assessEntry hassessed
    rw [h.cycleEvents_history hsaved] at haccepted
    obtain ⟨source, hsource, hid, hregistration, hscope⟩ := source_of_savedRegistration hsaved
    refine ⟨⟨source, hsource, hid, ?_, hscope⟩, haccepted⟩
    rw [hregistration]
    exact nofun

/-- One commit keeps every chain of the ledger sound. -/
theorem CyclesSound.snoc (h : CyclesSound ledger)
    (hcommit : commitCycle ledger input = some event) : CyclesSound (ledger ++ [event]) := by
  obtain ⟨hnew, hassessed⟩ := assessed_of_commitCycle hcommit
  refine ⟨?_, explained_snoc.mpr ⟨h.registered, ?_⟩, fun registrationEventId => ?_, ?_⟩
  · rw [List.map_append]
    refine List.nodup_append.mpr ⟨h.identities, List.nodup_singleton _, fun a ha b hb => ?_⟩
    obtain ⟨earlier, hearlier, rfl⟩ := List.mem_map.mp ha
    exact List.mem_singleton.mp hb ▸ hnew earlier hearlier
  · intro registrationEventId hid
    unfold CycleCommand.registrationEventId? at hid
    cases hoperation : event.case.command.operation with
    | register registration =>
      rw [hoperation] at hid
      exact nomatch hid
    | append other previousEventId entry =>
      rw [hoperation] at hid
      cases hid
      exact (h.accepted hoperation hassessed).1
  · rw [cycleEvents, List.filter_append, ← cycleEvents]
    by_cases hid : event.case.command.registrationEventId? = some registrationEventId
    · have hself : [event].filter
          (·.case.command.registrationEventId? = some registrationEventId) = [event] :=
        List.filter_eq_self.mpr fun item hitem =>
          decide_eq_true (List.mem_singleton.mp hitem ▸ hid)
      rw [hself]
      unfold CycleCommand.registrationEventId? at hid
      cases hoperation : event.case.command.operation with
      | register registration =>
        rw [hoperation] at hid
        exact nomatch hid
      | append other previousEventId entry =>
        rw [hoperation] at hid
        obtain rfl := Option.some.inj hid
        exact (h.cycles other).snoc hoperation (h.accepted hoperation hassessed).2
    · have hnone : [event].filter
          (·.case.command.registrationEventId? = some registrationEventId) = [] :=
        List.filter_eq_nil_iff.mpr fun item hitem heq =>
          hid (List.mem_singleton.mp hitem ▸ of_decide_eq_true heq)
      rw [hnone, List.append_nil]
      exact h.cycles registrationEventId
  · refine List.pairwise_append.mpr ⟨h.locks, List.pairwise_singleton .., ?_⟩
    intro earlier hearlier next hnext hscope registration hregistration other hother
    obtain rfl := List.mem_singleton.mp hnext
    have hhistory : earlier ∈ prospectiveHistory ledger next.case.accessScope :=
      List.mem_filter.mpr ⟨hearlier, hscope⟩
    exact lock_of_assess hother hassessed earlier hhistory registration hregistration

/-- Whatever commands clients adjudicate and commit, in whatever order, cycles are sound. -/
theorem run_cyclesSound (inputs : List (CycleInput α)) : CyclesSound (cycleLedger inputs) := by
  induction inputs using List.reverseRecOn with
  | nil => exact ⟨List.nodup_nil, explained_nil, fun _ => cycleSound_nil, .nil⟩
  | append_singleton inputs input ih =>
    rw [cycleLedger, List.foldl_append, ← cycleLedger, List.foldl_cons, List.foldl_nil, appendCycle]
    split
    · rename_i event hcommit
      exact ih.snoc hcommit
    · exact ih

end Runs

namespace SampleCycles

def versionBundle : DecisionCaseVersionBundle :=
  ⟨"5", "1", "1", "sha", "agent", "1", "adapter", "1", "1", "1", "0.5.1", "url", "wheel",
    "commit"⟩

def registration : CycleRegistration where
  versionId := "cycle"
  sourceVersionBundle := versionBundle
  calendarVersion := "calendar"
  sourceScopes := ["prices"]
  planNodes := [⟨"2042-07", 10, 20, 30⟩]
  populationPolicy := some
    { cohortSize := 1
      selectionPolicy := ⟨"1", 1, 1, 1, 2, 1, 1, 1⟩
      selectionStrategyVersion := "1"
      rawScoreModelVersion := "1"
      calibratorVersion := "1"
      standardQuantity := 1 }

def register (account : String) : CycleInput Unit where
  decisionEventId := account
  case :=
    { accessScope := { DecisionCases.ResultAccessScope.personal "user" account with
        visibility := .shadow }
      versionBundle
      command := ⟨.register registration, 1⟩ }
  committedAt := 2
  accounts := .ok ()

theorem ledger_spec : (cycleLedger [register "first", register "second"]).map
    (fun event => (event.case.command.registration?, event.report.disposition)) =
      [(some registration, .registered), (some registration, .registered)] := by
  decide +kernel

end SampleCycles

/-- Two accounts of a user register one bundle and one scientific population each. -/
theorem sample_sharedLock :
    ∃ inputs : List (CycleInput Unit), ¬ (cycleLedger inputs).Pairwise fun event next =>
      ∀ registration ∈ event.case.command.registration?,
        ∀ other ∈ next.case.command.registration?,
          registration.sourceVersionBundle ≠ other.sourceVersionBundle ∧
            other.sameScientificPopulationAs registration = false := by
  refine ⟨[SampleCycles.register "first", SampleCycles.register "second"], fun h => ?_⟩
  have hledger := SampleCycles.ledger_spec
  generalize cycleLedger [SampleCycles.register "first", SampleCycles.register "second"] =
    ledger at h hledger
  obtain ⟨event, rest, rfl, hevent, hledger⟩ := List.map_eq_cons_iff.mp hledger
  obtain ⟨next, rest, rfl, hnext, -⟩ := List.map_eq_cons_iff.mp hledger
  have hfirst : event.case.command.registration? = some SampleCycles.registration :=
    (Prod.mk.inj hevent).1
  have hsecond : next.case.command.registration? = some SampleCycles.registration :=
    (Prod.mk.inj hnext).1
  exact ((List.pairwise_cons.mp h).1 next (List.mem_cons_self ..) _ hfirst _ hsecond).1 rfl

end StockProfiler.Prospective.Cycle
