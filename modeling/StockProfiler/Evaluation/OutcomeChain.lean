import StockProfiler.Evaluation.OutcomeLedger

/-!
# Chains of standard outcome reports

The reports of a source are one chain. Its members stay, an identity of evidence keeps its content,
and an outcome that is reported is kept until evidence corrects what it rests on.
-/

namespace StockProfiler.Evaluation

open CandidateSelection (CandidateReleaseCommand)
open DecisionCases (ResultAccessScope)

variable {observations : List StandardObservation} {evidence : MarketEvidence}

/-- Evidence is filed under its identity. -/
def Files (evidenceById : Dict String MarketEvidence) (evidence : MarketEvidence) : Prop :=
  evidenceById.get? evidence.fact.evidenceId = some evidence

/-- Incoming evidence of a slot is available, and corrects what it replaces. -/
structure AcceptedOver (cutoff : Instant) (incoming prior : Option MarketEvidence) : Prop where
  available : ∀ evidence ∈ incoming, evidence.fact.availableAt ≤ cutoff
  corrects : ∀ evidence ∈ incoming, ∀ retained ∈ prior, evidence = retained ∨
    evidence.fact.correctsEvidenceId = some retained.fact.evidenceId

section Accept

variable {cutoff : Instant} {evidenceById after : Dict String MarketEvidence}
  {incoming prior : Option MarketEvidence}

/-- Accepted evidence is filed, over nothing else that is filed. -/
theorem accepted_of_acceptEvidence
    (h : acceptEvidence cutoff evidenceById incoming prior = .ok after) :
    AcceptedOver cutoff incoming prior ∧
      (∀ evidence, Files evidenceById evidence → Files after evidence) ∧
        ∀ evidence ∈ incoming, Files after evidence := by
  cases incoming with
  | none =>
    cases h
    have hnone : ∀ evidence ∈ (none : Option MarketEvidence), ∀ P : Prop, P :=
      fun _ hmem _ => absurd hmem (Option.not_mem_none _)
    exact ⟨⟨fun evidence hmem => hnone evidence hmem _, fun evidence hmem => hnone evidence hmem _⟩,
      fun _ hfiled => hfiled, fun evidence hmem => hnone evidence hmem _⟩
  | some incoming =>
    obtain ⟨_, hvalid, h⟩ := bind_eq_ok.mp h
    cases h
    obtain ⟨_, havailable, hvalid⟩ := bind_eq_ok.mp hvalid
    obtain ⟨_, hknown, hvalid⟩ := bind_eq_ok.mp hvalid
    rw [require_eq_ok] at havailable hknown
    refine ⟨⟨?_, ?_⟩, fun evidence hfiled => ?_, ?_⟩
    · rintro _ ⟨⟩
      exact havailable
    · rintro _ ⟨⟩ retained hretained
      rw [Option.mem_def.mp hretained] at hvalid
      exact (require_eq_ok.mp hvalid).imp_right And.left
    · unfold Files at hfiled ⊢
      rw [Dict.get?_set]
      split
      · rename_i hid
        rw [← hid] at hfiled
        rw [hknown evidence hfiled]
      · exact hfiled
    · rintro _ ⟨⟩
      unfold Files
      rw [Dict.get?_set, if_pos rfl]

end Accept

/-- An incoming observation is accepted over what is retained of its security. -/
structure ObservationAccepted (cutoff : Instant) (incoming : StandardObservation)
    (prior : Option StandardObservation) : Prop where
  entry : AcceptedOver cutoff (incoming.entry.map .entry) ((prior.bind (·.entry)).map .entry)
  terminal : AcceptedOver cutoff (incoming.terminal.map .terminal)
    ((prior.bind (·.terminal)).map .terminal)

/-- What merging observations leaves of what was retained. -/
structure MergedFrom (cutoff : Instant) (observations : List StandardObservation)
    (state state' : RetainedEvidence) : Prop where
  retained : ∀ securityId, state'.retained.get? securityId =
    match observations.find? (·.securityId = securityId) with
    | some incoming => some (incoming.mergedWith (state.retained.get? securityId))
    | none => state.retained.get? securityId
  accepted : ∀ incoming ∈ observations,
    ObservationAccepted cutoff incoming (state.retained.get? incoming.securityId)
  filed : ∀ evidence, Files state.evidenceById evidence → Files state'.evidenceById evidence
  incoming : ∀ incoming ∈ observations, ∀ evidence ∈ incoming.evidence,
    Files state'.evidenceById evidence

theorem StandardObservation.mem_evidence {observation : StandardObservation} :
    evidence ∈ observation.evidence ↔
      observation.entry.map .entry = some evidence ∨
        observation.terminal.map .terminal = some evidence := by
  rw [StandardObservation.evidence, List.mem_append, Option.mem_toList, Option.mem_toList]

theorem ObservationAccepted.available {cutoff : Instant} {incoming : StandardObservation}
    {prior : Option StandardObservation} (h : ObservationAccepted cutoff incoming prior)
    (hevidence : evidence ∈ incoming.evidence) : evidence.fact.availableAt ≤ cutoff := by
  rcases StandardObservation.mem_evidence.mp hevidence with hslot | hslot
  · exact h.entry.available evidence hslot
  · exact h.terminal.available evidence hslot

theorem StandardObservation.mem_evidence_mergedWith {incoming : StandardObservation}
    {prior : Option StandardObservation} (h : evidence ∈ (incoming.mergedWith prior).evidence) :
    evidence ∈ incoming.evidence ∨ ∃ retained ∈ prior, evidence ∈ retained.evidence := by
  simp only [mem_evidence, Option.map_eq_some_iff] at h ⊢
  rcases h with ⟨entry, hentry, heq⟩ | ⟨terminal, hterminal, heq⟩
  · rcases (Option.orElse_eq_some _ _ _).mp hentry with hentry | ⟨-, hentry⟩
    · exact .inl (.inl ⟨entry, hentry, heq⟩)
    · obtain ⟨retained, hretained, hentry⟩ := bind_eq_some.mp hentry
      exact .inr ⟨retained, hretained, .inl ⟨entry, hentry, heq⟩⟩
  · rcases (Option.orElse_eq_some _ _ _).mp hterminal with hterminal | ⟨-, hterminal⟩
    · exact .inl (.inr ⟨terminal, hterminal, heq⟩)
    · obtain ⟨retained, hretained, hterminal⟩ := bind_eq_some.mp hterminal
      exact .inr ⟨retained, hretained, .inr ⟨terminal, hterminal, heq⟩⟩

section Merge

variable {cutoff : Instant} {state state' : RetainedEvidence}

theorem mergedFrom_of_mergeObservation {incoming : StandardObservation}
    (h : mergeObservation cutoff state incoming = .ok state') :
    MergedFrom cutoff [incoming] state state' := by
  obtain ⟨entered, hentered, h⟩ := bind_eq_ok.mp h
  obtain ⟨terminated, hterminated, h⟩ := bind_eq_ok.mp h
  cases h
  obtain ⟨hentry, hfiled, hfiledEntry⟩ := accepted_of_acceptEvidence hentered
  obtain ⟨hterminal, hfiled', hfiledTerminal⟩ := accepted_of_acceptEvidence hterminated
  refine ⟨fun securityId => ?_, fun other hother => ?_, fun evidence hknown => ?_, ?_⟩
  · rw [Dict.get?_set, List.find?_singleton]
    by_cases hid : incoming.securityId = securityId
    · rw [if_pos hid, decide_eq_true hid, hid]
      rfl
    · rw [if_neg hid, decide_eq_false hid]
      rfl
  · obtain rfl := List.mem_singleton.mp hother
    exact ⟨hentry, hterminal⟩
  · exact hfiled' evidence (hfiled evidence hknown)
  · intro other hother evidence hevidence
    obtain rfl := List.mem_singleton.mp hother
    rcases StandardObservation.mem_evidence.mp hevidence with hslot | hslot
    · exact hfiled' evidence (hfiledEntry evidence hslot)
    · exact hfiledTerminal evidence hslot

/-- Observations of different securities are merged one by one. -/
theorem mergedFrom_of_foldlM (hnodup : (observations.map (·.securityId)).Nodup)
    (h : observations.foldlM (mergeObservation cutoff) state = .ok state') :
    MergedFrom cutoff observations state state' := by
  induction observations generalizing state with
  | nil =>
    cases h
    exact ⟨fun _ => rfl, fun _ hmem => absurd hmem List.not_mem_nil, fun _ hfiled => hfiled,
      fun _ hmem => absurd hmem List.not_mem_nil⟩
  | cons incoming observations ih =>
    rw [List.map_cons, List.nodup_cons] at hnodup
    rw [List.foldlM_cons] at h
    obtain ⟨middle, hmiddle, h⟩ := bind_eq_ok.mp h
    have hone := mergedFrom_of_mergeObservation hmiddle
    have hrest := ih hnodup.2 h
    have hother : ∀ securityId, securityId ≠ incoming.securityId →
        middle.retained.get? securityId = state.retained.get? securityId := by
      intro securityId hne
      rw [hone.retained, List.find?_singleton, decide_eq_false (Ne.symm hne)]
      rfl
    refine ⟨fun securityId => ?_, ?_, fun evidence hfiled => ?_, ?_⟩
    · rw [hrest.retained, List.find?_cons]
      by_cases hid : incoming.securityId = securityId
      · have hnone : observations.find? (·.securityId = securityId) = none :=
          List.find?_eq_none.mpr fun other hmem heq =>
            hnodup.1 (List.mem_map.mpr ⟨other, hmem, (of_decide_eq_true heq).trans hid.symm⟩)
        rw [hnone, decide_eq_true hid, hone.retained, List.find?_singleton, decide_eq_true hid]
        rfl
      · rw [decide_eq_false hid, hother securityId (Ne.symm hid)]
    · refine List.forall_mem_cons.mpr ⟨hone.accepted incoming (List.mem_singleton_self _), ?_⟩
      intro other hmem
      have hne : other.securityId ≠ incoming.securityId :=
        fun heq => hnodup.1 (List.mem_map.mpr ⟨other, hmem, heq⟩)
      rw [← hother _ hne]
      exact hrest.accepted other hmem
    · exact hrest.filed evidence (hone.filed evidence hfiled)
    · refine List.forall_mem_cons.mpr ⟨fun evidence hevidence => ?_, hrest.incoming⟩
      exact hrest.filed evidence
        (hone.incoming incoming (List.mem_singleton_self _) evidence hevidence)

end Merge

/-- What the report of a command on a source was assembled from. -/
structure Assessment (digest : String → String) (calendars : String → Option StandardCalendar)
    (case : EvaluationCase) (command : StandardOutcomeCommand) (ledger : List EvaluationEvent)
    (source : EvaluationEvent) (history : List SavedOutcomes) where
  calendar : StandardCalendar
  window : List Instant × Instant
  merged : RetainedEvidence
  selected : List EvaluationMember
  releases : List EvaluationEvent
  admitted : List EvaluationMember
  calendar_eq : calendars command.marketCalendarVersion = some calendar
  window_eq : entryWindow calendar source.sourceCutoff = .ok window
  registrations_eq : command.candidateEventId.isSome → retainedRegistrations digest source = []
  lineage : command.previousEventId = history.getLast?.map (·.decisionEventId)
  contract : ∀ prior ∈ history.getLast?, prior.report.cutoffAt ≤ command.cutoffAt ∧
    prior.committedAt ≤ command.cutoffAt ∧
    prior.command.standardQuantity = command.standardQuantity ∧
    prior.command.marketCalendarVersion = command.marketCalendarVersion
  distinct : (command.observations.map (·.securityId)).Nodup
  observed : ∀ observation ∈ command.observations, observation.securityId ∈ source.sourceMembers
  mergedFrom : MergedFrom command.cutoffAt command.observations (retainedEvidence history) merged
  selected_eq : selectionMembers command calendar window merged.retained
    (retainedRegistrations digest source) = .ok selected
  releases_eq : sourceReleases digest case command ledger source = .ok releases
  admitted_eq : (releases.flatMap (retainedRegistrations digest)).mapM
    (admittedMember selected source.sourceMembers) = .ok admitted

section Assessments

variable {observation : Option StandardObservation} {calendar : StandardCalendar}
  {member : EvaluationMember} {event : EvaluationEvent} {digest : String → String}
  {calendars : String → Option StandardCalendar} {case : EvaluationCase}
  {command : StandardOutcomeCommand} {ledger : List EvaluationEvent} {source : EvaluationEvent}
  {history : List SavedOutcomes} {report : StandardOutcomeReport}

namespace Assessment

variable (a : Assessment digest calendars case command ledger source history)

/-- The members of all populations. -/
def members : List EvaluationMember :=
  (if source.result.selection.isSome then a.selected else []) ++ a.admitted

/-- The registrations that the members come from. -/
def registrations : List EvaluationRegistration :=
  (if source.result.selection.isSome then
    (retainedRegistrations digest source).filter (·.population = .selection) else []) ++
  a.releases.flatMap (retainedRegistrations digest)

end Assessment

/-- Every report of a source comes from an assessment, without repeated ids. -/
theorem exists_assessment
    (h : assessSource digest calendars case command ledger source = .ok report)
    (hhistory : outcomesOf command.sourceEventId (standardEvaluationHistory ledger case) =
      history) :
    ∃ a : Assessment digest calendars case command ledger source history,
      report = outcomeReport command history.getLast? a.members ∧
        (a.members.map (·.evaluationId)).Nodup := by
  unfold assessSource at h
  dsimp only at h
  rw [hhistory] at h
  obtain ⟨_, hregistrations, h⟩ := bind_eq_ok.mp h
  obtain ⟨calendar, hcalendar, h⟩ := bind_eq_ok.mp h
  obtain ⟨window, hwindow, h⟩ := bind_eq_ok.mp h
  obtain ⟨_, hlineage, h⟩ := bind_eq_ok.mp h
  obtain ⟨merged, hmerged, h⟩ := bind_eq_ok.mp h
  obtain ⟨selected, hselected, h⟩ := bind_eq_ok.mp h
  obtain ⟨releases, hreleases, h⟩ := bind_eq_ok.mp h
  obtain ⟨_, -, h⟩ := bind_eq_ok.mp h
  obtain ⟨members, hmembers, h⟩ := bind_eq_ok.mp h
  obtain ⟨_, hnodup, h⟩ := bind_eq_ok.mp h
  obtain ⟨_, -, h⟩ := bind_eq_ok.mp h
  cases h
  obtain ⟨admitted, hadmitted, hmembers⟩ := bind_eq_ok.mp hmembers
  cases hmembers
  obtain ⟨_, hprevious, hcontract⟩ := bind_eq_ok.mp hlineage
  obtain ⟨_, hobservations, hmerged⟩ := bind_eq_ok.mp hmerged
  rw [require_eq_ok] at hregistrations hprevious hcontract hobservations hnodup
  exact ⟨{
    calendar
    window
    merged
    selected
    releases
    admitted
    calendar_eq := known_eq_ok.mp hcalendar
    window_eq := hwindow
    registrations_eq := hregistrations
    lineage := hprevious
    contract := hcontract
    distinct := hobservations.1
    observed := hobservations.2
    mergedFrom := mergedFrom_of_foldlM hobservations.1 hmerged
    selected_eq := hselected
    releases_eq := hreleases
    admitted_eq := hadmitted }, rfl, hnodup⟩

/-- A member carries the outcome of evaluating its security on its observation. -/
structure MemberEvaluated (calendar : StandardCalendar) (window : List Instant × Instant)
    (quantity : ℚ) (cutoff : Instant) (member : EvaluationMember) : Prop where
  timely : member.Timely cutoff
  evaluated : ∃ base result, base.Awaiting cutoff ∧ base.maturesAt = window.2 ∧
    base.entryAt = none ∧ base.entryPrice = none ∧ base.netTotalReturn = none ∧
    evaluateMember calendar base member.observation window.1 cutoff quantity = .ok result ∧
    result.outcome = member.outcome

/-- Evaluation of a registered member on evidence that the cutoff sees. -/
theorem memberEvaluated_of_evaluateMember {window : List Instant × Instant} {quantity : ℚ}
    {cutoff : Instant} {registration : EvaluationRegistration}
    (havailable : ∀ o ∈ observation, ∀ entry ∈ o.entry, entry.availableAt ≤ cutoff)
    (h : evaluateMember calendar (registeredMember cutoff window.2 registration) observation
      window.1 cutoff quantity = .ok member) :
    member.identity = (registeredMember cutoff window.2 registration).identity ∧
      member.observation = observation ∧
        MemberEvaluated calendar window quantity cutoff member := by
  have hawaiting : (registeredMember cutoff window.2 registration).Awaiting cutoff := rfl
  cases observation with
  | none =>
    have hmember := Except.ok.inj h
    have hobservation : member.observation = none := by rw [← hmember]
    refine ⟨by rw [← hmember]; rfl, hobservation, ?_, _, member, hawaiting, rfl, rfl, rfl, rfl, ?_,
      rfl⟩
    · rw [← hmember]
      exact hawaiting.timely
    · rw [hobservation]
      exact h
  | some observation =>
    have hevaluated := evaluated_of_evaluateMember hawaiting (havailable observation rfl) h
    refine ⟨hevaluated.identity, hevaluated.observation, hevaluated.timely, _, member, hawaiting,
      rfl, rfl, rfl, rfl, ?_, rfl⟩
    rw [hevaluated.observation]
    exact h

/-- Evidence retained for every security is available at a cutoff. -/
def AvailableAt (cutoff : Instant) (retained : Dict String StandardObservation) : Prop :=
  ∀ securityId, ∀ observation ∈ retained.get? securityId, ∀ evidence ∈ observation.evidence,
    evidence.fact.availableAt ≤ cutoff

/-- What is merged is available, when what was retained is. -/
theorem MergedFrom.availableAt {cutoff earlier : Instant} {state state' : RetainedEvidence}
    (h : MergedFrom cutoff observations state state') (hbefore : AvailableAt earlier state.retained)
    (hle : earlier ≤ cutoff) : AvailableAt cutoff state'.retained := by
  intro securityId observation hobservation evidence hevidence
  have hretained := h.retained securityId
  rw [Option.mem_def.mp hobservation] at hretained
  split at hretained
  · rename_i incoming hfound
    cases hretained
    have hmem := List.mem_of_find?_eq_some hfound
    rcases StandardObservation.mem_evidence_mergedWith hevidence with hevidence | hevidence
    · exact (h.accepted incoming hmem).available hevidence
    · obtain ⟨prior, hprior, hevidence⟩ := hevidence
      exact (hbefore securityId prior hprior evidence hevidence).trans hle
  · exact (hbefore securityId observation hretained.symm evidence hevidence).trans hle

namespace Assessment

variable (a : Assessment digest calendars case command ledger source history)

/-- A member of a report comes from a registration, and carries the outcome of its security on what
is retained of it. -/
structure Reports (registration : EvaluationRegistration) (member : EvaluationMember) : Prop where
  identity : member.identity = (registeredMember command.cutoffAt a.window.2 registration).identity
  observation : member.observation = a.merged.retained.get? member.securityId
  evaluated : MemberEvaluated a.calendar a.window command.standardQuantity command.cutoffAt member

variable {a}

variable (havailable : AvailableAt command.cutoffAt a.merged.retained)
include havailable

theorem reports_selected :
    List.Forall₂ a.Reports
      ((retainedRegistrations digest source).filter (·.population = .selection)) a.selected := by
  refine (mapM_eq_ok.mp a.selected_eq).imp fun registration member h => ?_
  obtain ⟨hidentity, hobservation, hevaluated⟩ := memberEvaluated_of_evaluateMember
    (fun o ho entry hentry => havailable _ o ho _ (StandardObservation.mem_evidence.mpr
      (.inl (Option.map_eq_some_iff.mpr ⟨entry, hentry, rfl⟩)))) h
  have hsecurity : member.securityId = registration.securityId :=
    congrArg (fun identity => identity.2.2.2) hidentity
  exact ⟨hidentity, by rw [hsecurity]; exact hobservation, hevaluated⟩

theorem reports_admitted :
    List.Forall₂ a.Reports (a.releases.flatMap (retainedRegistrations digest)) a.admitted := by
  refine (mapM_eq_ok.mp a.admitted_eq).imp fun registration member h => ?_
  obtain ⟨_, -, h⟩ := bind_eq_ok.mp h
  obtain ⟨base, hbase, h⟩ := bind_eq_ok.mp h
  cases h
  rw [known_eq_ok] at hbase
  have hsecurity := List.find?_some hbase
  rw [decide_eq_true_eq] at hsecurity
  obtain ⟨_, -, hreports⟩ := forall₂_mem_right (reports_selected havailable)
    (List.mem_of_find?_eq_some hbase)
  refine ⟨?_, hreports.observation, hreports.evaluated.timely, hreports.evaluated.evaluated⟩
  unfold EvaluationMember.identity
  dsimp only
  rw [hsecurity]
  rfl

/-- Every member of a report is reported under its registration. -/
theorem reports_members : List.Forall₂ a.Reports a.registrations a.members := by
  unfold registrations members
  refine List.rel_append ?_ (reports_admitted havailable)
  split
  · exact reports_selected havailable
  · exact .nil

end Assessment

/-- The members of a report are known at their time, from evidence that the cutoff sees, and are
counted. -/
structure ReportSound (report : StandardOutcomeReport) : Prop where
  identities : (report.members.map (·.evaluationId)).Nodup
  timely : ∀ member ∈ report.members, member.Timely report.cutoffAt
  retained : ∀ member ∈ report.members,
    member.observation = report.retained.get? member.securityId
  available : AvailableAt report.cutoffAt report.retained
  balanced : ∀ counts ∈ report.populations, counts.2.Balanced

omit digest calendars case command ledger source history in
theorem get?_retained {observations : Dict String StandardObservation}
    (h : ∀ member ∈ report.members, member.observation = observations.get? member.securityId)
    (hmember : member ∈ report.members) :
    member.observation = report.retained.get? member.securityId := by
  cases hobservation : member.observation with
  | some observation =>
    refine (Dict.get?_ofLast_of_mem ?_ fun other hother => ?_).symm
    · exact List.mem_filterMap.mpr ⟨member, hmember, by rw [hobservation]; rfl⟩
    · obtain ⟨otherMember, hmem, hother⟩ := List.mem_filterMap.mp hother
      obtain ⟨observed, hobserved, hpair⟩ := Option.map_eq_some_iff.mp hother
      obtain ⟨hsecurity, rfl⟩ := Prod.mk.inj hpair
      have hsame := h otherMember hmem
      rw [hsecurity, ← h member hmember, hobservation, hobserved] at hsame
      exact Option.some.inj hsame
  | none =>
    cases hretained : report.retained.get? member.securityId with
    | none => rfl
    | some observation =>
      obtain ⟨otherMember, hmem, hother⟩ :=
        List.mem_filterMap.mp (Dict.mem_ofLast (Dict.mem_of_get? hretained))
      obtain ⟨observed, hobserved, hpair⟩ := Option.map_eq_some_iff.mp hother
      obtain ⟨hsecurity, rfl⟩ := Prod.mk.inj hpair
      have hsame := h otherMember hmem
      rw [hsecurity, ← h member hmember, hobservation, hobserved] at hsame
      exact nomatch hsame

omit digest calendars case command ledger source history in
theorem mem_evidence_of_retained {securityId : String} {observation : StandardObservation}
    (h : report.retained.get? securityId = some observation)
    (hevidence : evidence ∈ observation.evidence) : evidence ∈ report.evidence := by
  obtain ⟨member, hmember, hpair⟩ :=
    List.mem_filterMap.mp (Dict.mem_ofLast (Dict.mem_of_get? h))
  obtain ⟨observed, hobserved, hpair⟩ := Option.map_eq_some_iff.mp hpair
  obtain ⟨-, rfl⟩ := Prod.mk.inj hpair
  exact List.mem_flatMap.mpr ⟨observed, List.mem_filterMap.mpr ⟨member, hmember, hobserved⟩,
    hevidence⟩

/-- The report of an assessment is sound. -/
theorem reportSound_of_assessment
    (a : Assessment digest calendars case command ledger source history)
    (havailable : AvailableAt command.cutoffAt a.merged.retained)
    (hnodup : (a.members.map (·.evaluationId)).Nodup) :
    ReportSound (outcomeReport command history.getLast? a.members) := by
  have hreports : ∀ member ∈ a.members, ∃ registration ∈ a.registrations,
      a.Reports registration member := fun member hmember =>
    forall₂_mem_right (Assessment.reports_members havailable) hmember
  have htimely : ∀ member ∈ a.members, member.Timely command.cutoffAt := by
    intro member hmember
    obtain ⟨_, -, hmember⟩ := hreports member hmember
    exact hmember.evaluated.timely
  have hobserved : ∀ member ∈ a.members,
      member.observation = a.merged.retained.get? member.securityId := by
    intro member hmember
    obtain ⟨_, -, hmember⟩ := hreports member hmember
    exact hmember.observation
  refine ⟨hnodup, htimely, fun member hmember => get?_retained hobserved hmember, ?_, ?_⟩
  · intro securityId observation hobservation evidence hevidence
    obtain ⟨member, hmember, hpair⟩ :=
      List.mem_filterMap.mp (Dict.mem_ofLast (Dict.mem_of_get? hobservation))
    obtain ⟨observed, hobserved', hpair⟩ := Option.map_eq_some_iff.mp hpair
    obtain ⟨-, rfl⟩ := Prod.mk.inj hpair
    refine havailable member.securityId observed ?_ evidence hevidence
    rw [← hobserved member hmember]
    exact hobserved'
  · intro counts hcounts
    obtain ⟨population, -, rfl⟩ := List.mem_map.mp hcounts
    exact balanced_populationCounts fun member hmember =>
      htimely member (List.mem_of_mem_filter hmember)

/-- A command explicitly corrects evidence that the report before it retains of a security. -/
def SavedOutcomes.Corrects (next previous : SavedOutcomes) (securityId : String) : Prop :=
  ∃ incoming ∈ next.command.observations, incoming.securityId = securityId ∧
    ∃ retained ∈ previous.report.retained.get? securityId,
      (∃ entry ∈ incoming.entry, ∃ old ∈ retained.entry,
        entry.correctsEvidenceId = some old.evidenceId) ∨
      ∃ terminal ∈ incoming.terminal, ∃ old ∈ retained.terminal,
        terminal.correctsEvidenceId = some old.evidenceId

/-- How a report continues the one before it: members stay, and outcomes that are known are kept
until their evidence is corrected. -/
structure Continues (previous next : SavedOutcomes) : Prop where
  cutoff : previous.report.cutoffAt ≤ next.report.cutoffAt
  members : ∀ member ∈ previous.report.members, ∃ later ∈ next.report.members,
    later.identity = member.identity
  kept : ∀ member ∈ previous.report.members, member.state.isResolved = true →
    ¬next.Corrects previous member.securityId → ∀ later ∈ next.report.members,
      later.evaluationId = member.evaluationId → later.outcome = member.outcome

omit digest calendars case command ledger source history report in
/-- Evidence without a correction keeps what an outcome rests on. -/
theorem keeps_of_not_corrects {previous next : SavedOutcomes} {incoming prior : StandardObservation}
    (hincoming : incoming ∈ next.command.observations)
    (hprior : previous.report.retained.get? incoming.securityId = some prior)
    (hentry : prior.entry.isSome) {cutoff : Instant}
    (haccepted : ObservationAccepted cutoff incoming (some prior))
    (h : ¬next.Corrects previous incoming.securityId) :
    prior.Keeps (incoming.mergedWith (some prior)) where
  entry := by
    obtain ⟨old, hold⟩ := Option.isSome_iff_exists.mp hentry
    change (incoming.entry <|> prior.entry) = prior.entry
    cases hnew : incoming.entry with
    | none => rfl
    | some entry =>
      rcases haccepted.entry.corrects (.entry entry) (by rw [hnew]; rfl) (.entry old)
        (by rw [Option.bind_some, hold]; rfl) with heq | hcorrects
      · rw [MarketEvidence.entry.inj heq, hold]
        rfl
      · exact absurd ⟨incoming, hincoming, rfl, prior, hprior, .inl ⟨entry, hnew, old, hold,
          hcorrects⟩⟩ h
  terminal := fun old hold => by
    change (incoming.terminal <|> prior.terminal) = some old
    cases hnew : incoming.terminal with
    | none => exact hold
    | some terminal =>
      rcases haccepted.terminal.corrects (.terminal terminal) (by rw [hnew]; rfl) (.terminal old)
        (by rw [Option.bind_some, hold]; rfl) with heq | hcorrects
      · rw [MarketEvidence.terminal.inj heq]
        rfl
      · exact absurd ⟨incoming, hincoming, rfl, prior, hprior, .inr ⟨terminal, hnew, old, hold,
          hcorrects⟩⟩ h

omit digest calendars case command ledger source history report in
theorem entry_of_resolved {base result : EvaluationMember} {sessions : List Instant}
    {cutoff : Instant} {quantity : ℚ} (hawaiting : base.Awaiting cutoff)
    (h : evaluateMember calendar base observation sessions cutoff quantity = .ok result)
    (hresolved : result.state.isResolved = true) :
    ∃ known, observation = some known ∧ known.entry.isSome := by
  have hunresolved : base.state.isResolved = false := by
    rw [hawaiting]
    split <;> rfl
  unfold evaluateMember at h
  split at h
  · cases h
    exact absurd (hresolved.symm.trans hunresolved) nofun
  · rename_i known
    refine ⟨known, rfl, ?_⟩
    split at h
    · cases h
      exact absurd (hresolved.symm.trans hunresolved) nofun
    · rename_i entry hentry
      rw [hentry]
      rfl

/-- Members come from registrations that have their identities. -/
theorem Assessment.identities_registrations
    {a : Assessment digest calendars case command ledger source history}
    (havailable : AvailableAt command.cutoffAt a.merged.retained) :
    a.registrations.map (·.evaluationId) = a.members.map (·.evaluationId) :=
  map_eq_map_of_forall₂ ((Assessment.reports_members havailable).imp fun _ _ h =>
    (congrArg Prod.fst h.identity).symm)

section Step

variable {case' : EvaluationCase} {previous next : SavedOutcomes}
  {ledger' : List EvaluationEvent} {history' : List SavedOutcomes}

/-- A report on the registrations of the one before it, and maybe more, continues it. -/
theorem continues_of_assessments
    (a' : Assessment digest calendars case' previous.command ledger' source history')
    (a : Assessment digest calendars case next.command ledger source history)
    (hlast : history.getLast? = some previous)
    (hprevious : previous.report = outcomeReport previous.command history'.getLast? a'.members)
    (hnext : next.report = outcomeReport next.command history.getLast? a.members)
    (havailable' : AvailableAt previous.command.cutoffAt a'.merged.retained)
    (havailable : AvailableAt next.command.cutoffAt a.merged.retained)
    (hsound : ReportSound previous.report) (hnodup : (a.members.map (·.evaluationId)).Nodup)
    (hgrown : a'.registrations ⊆ a.registrations) : Continues previous next := by
  obtain ⟨hcutoff, -, hquantity, hversion⟩ := a.contract previous hlast
  have hcutoff' : previous.command.cutoffAt ≤ next.command.cutoffAt := by
    rw [hprevious] at hcutoff
    exact hcutoff
  have hmembers' : previous.report.members = a'.members := by rw [hprevious]; rfl
  have hmembers : next.report.members = a.members := by rw [hnext]; rfl
  have hreports' := Assessment.reports_members havailable'
  have hreports := Assessment.reports_members havailable
  have hregistrations : (a.registrations.map (·.evaluationId)).Nodup := by
    rw [Assessment.identities_registrations havailable]
    exact hnodup
  refine ⟨by rw [hnext]; exact hcutoff, ?_, ?_⟩
  · intro member hmember
    rw [hmembers'] at hmember
    obtain ⟨registration, hregistration, hmember⟩ := forall₂_mem_right hreports' hmember
    obtain ⟨later, hlater, hreported⟩ := forall₂_mem_left hreports (hgrown hregistration)
    rw [hmembers]
    exact ⟨later, hlater, hreported.identity.trans hmember.identity.symm⟩
  · intro member hmember hresolved hcorrects later hlater hid
    have hretained := hsound.retained member hmember
    rw [hmembers'] at hmember
    rw [hmembers] at hlater
    obtain ⟨registration', hregistration', hmember⟩ := forall₂_mem_right hreports' hmember
    obtain ⟨registration, hregistration, hlater⟩ := forall₂_mem_right hreports hlater
    obtain rfl : registration = registration' :=
      List.inj_on_of_nodup_map hregistrations hregistration (hgrown hregistration')
        ((congrArg Prod.fst hlater.identity).symm.trans
          (hid.trans (congrArg Prod.fst hmember.identity)))
    have hsecurity : later.securityId = member.securityId :=
      congrArg (fun identity => identity.2.2.2) (hlater.identity.trans hmember.identity.symm)
    have hcalendar : a'.calendar = a.calendar := by
      have h := a'.calendar_eq
      rw [hversion, a.calendar_eq] at h
      exact (Option.some.inj h).symm
    have hwindow : a'.window = a.window := by
      have h := a'.window_eq
      rw [hcalendar, a.window_eq] at h
      exact (Except.ok.inj h).symm
    obtain ⟨base', result', hawaiting', hmatures', hentryAt', hprice', hreturn', heval', hout'⟩ :=
      hmember.evaluated.evaluated
    obtain ⟨base, result, -, hmatures, hentryAt, hprice, hreturn, heval, hout⟩ :=
      hlater.evaluated.evaluated
    have hstate : result'.state = member.state := congrArg MemberOutcome.state hout'
    rw [← hstate] at hresolved
    obtain ⟨prior, hprior, hentry⟩ := entry_of_resolved hawaiting' heval' hresolved
    rw [hprior] at heval' hretained
    -- What is retained of the security keeps the entry and the terminal that were reported.
    obtain ⟨kept, hkept, hkeeps⟩ : ∃ kept, later.observation = some kept ∧ prior.Keeps kept := by
      have hmerged := a.mergedFrom.retained member.securityId
      have hbefore : (retainedEvidence history).retained.get? member.securityId = some prior := by
        rw [retainedEvidence, hlast]
        exact hretained.symm
      rw [hbefore] at hmerged
      rw [hlater.observation, hsecurity, hmerged]
      split
      · rename_i incoming hfound
        have hincoming := List.mem_of_find?_eq_some hfound
        have hsame := List.find?_some hfound
        rw [decide_eq_true_eq] at hsame
        have haccepted := a.mergedFrom.accepted incoming hincoming
        rw [hsame, hbefore] at haccepted
        rw [← hsame] at hcorrects hretained
        exact ⟨_, rfl, keeps_of_not_corrects hincoming hretained.symm hentry haccepted hcorrects⟩
      · exact ⟨prior, rfl, rfl, fun _ h => h⟩
    rw [hkept, ← hcalendar, ← hwindow, ← hquantity] at heval
    rw [← hout, ← hout']
    exact outcome_of_resolved hawaiting'
      ⟨(by rw [hmatures, hmatures', hwindow]), hentryAt.trans hentryAt'.symm,
        hprice.trans hprice'.symm, hreturn.trans hreturn'.symm⟩
      heval' hresolved hcutoff' hkeeps heval

end Step

omit digest calendars case command ledger source history report in
theorem EvaluationCase.sameScopeAs_iff {case other : EvaluationCase} :
    case.sameScopeAs other = true ↔ ∃ scope ∈ case.accessScope, ∃ otherScope ∈ other.accessScope,
      scope.sameScopeAs otherScope = true := by
  unfold EvaluationCase.sameScopeAs
  split
  · rename_i scope otherScope hscope hother
    rw [hscope, hother]
    exact ⟨fun h => ⟨scope, rfl, otherScope, rfl, h⟩, fun ⟨_, rfl, _, rfl, h⟩ => h⟩
  · rename_i hnone
    refine ⟨nofun, fun ⟨scope, hscope, otherScope, hother, _⟩ => ?_⟩
    exact absurd hother (hnone scope otherScope hscope)

omit digest calendars case command ledger source history report in
theorem EvaluationCase.sameScopeAs_trans {case other third : EvaluationCase}
    (h : case.sameScopeAs other = true) (h' : other.sameScopeAs third = true) :
    case.sameScopeAs third = true := by
  obtain ⟨scope, hscope, middle, hmiddle, h⟩ := sameScopeAs_iff.mp h
  obtain ⟨_, hmiddle', last, hlast, h'⟩ := sameScopeAs_iff.mp h'
  obtain rfl := Option.some.inj (hmiddle.symm.trans hmiddle')
  exact sameScopeAs_iff.mpr ⟨scope, hscope, last, hlast, ResultAccessScope.sameScopeAs_trans h h'⟩

omit digest calendars case command ledger source history report in
theorem EvaluationCase.sameScopeAs_symm {case other : EvaluationCase}
    (h : case.sameScopeAs other = true) : other.sameScopeAs case = true := by
  obtain ⟨scope, hscope, last, hlast, h⟩ := sameScopeAs_iff.mp h
  exact sameScopeAs_iff.mpr ⟨last, hlast, scope, hscope, ResultAccessScope.sameScopeAs_symm h⟩

omit calendars case command source history report in
/-- An event that is found is found in every longer ledger. -/
theorem getDecisionEvent_of_prefix {earlier : List EvaluationEvent} (hgrown : earlier <+: ledger)
    {decisionEventId : String} (h : getDecisionEvent earlier decisionEventId = some event) :
    getDecisionEvent ledger decisionEventId = some event := by
  obtain ⟨later, rfl⟩ := hgrown
  rw [getDecisionEvent, List.find?_append, ← getDecisionEvent, h]
  rfl

omit calendars history report in
theorem mem_sourceReleases {releases : List EvaluationEvent}
    (hselection : command.selectionEventId.isSome)
    (h : sourceReleases digest case command ledger source = .ok releases) : event ∈ releases ↔
      ∃ release ∈ visibleReleases case command ledger source, release.1 = event ∧
        releaseBelongsToSelection digest ledger source command.cutoffAt release = .ok true := by
  unfold sourceReleases at h
  dsimp only at h
  rw [if_pos hselection] at h
  obtain ⟨verdicts, hverdicts, h⟩ := bind_eq_ok.mp h
  cases h
  have hverdicts := mapM_eq_ok.mp hverdicts
  simp only [List.mem_map, List.mem_filter]
  constructor
  · rintro ⟨⟨release, belongs⟩, ⟨hmem, hbelongs⟩, rfl⟩
    obtain ⟨visible, hvisible, hverdict⟩ := forall₂_mem_right hverdicts hmem
    obtain ⟨answer, hanswer, hverdict⟩ := bind_eq_ok.mp hverdict
    obtain ⟨rfl, rfl⟩ := Prod.mk.inj (Except.ok.inj hverdict)
    refine ⟨visible, hvisible, rfl, ?_⟩
    rw [hanswer]
    exact congrArg Except.ok hbelongs
  · rintro ⟨visible, hvisible, rfl, hbelongs⟩
    obtain ⟨verdict, hmem, hverdict⟩ := forall₂_mem_left hverdicts hvisible
    obtain ⟨answer, hanswer, hverdict⟩ := bind_eq_ok.mp hverdict
    cases hverdict
    rw [hbelongs] at hanswer
    exact ⟨_, ⟨hmem, (Except.ok.inj hanswer).symm⟩, rfl⟩

omit digest calendars case command ledger source history report in
/-- A command names a selection or a candidate release. -/
theorem StandardOutcomeCommand.candidateEventId_of_selection (command : StandardOutcomeCommand)
    (h : command.selectionEventId.isSome = true) : command.candidateEventId = none := by
  have hsource := command.source_valid
  rw [h] at hsource
  exact Option.not_isSome_iff_eq_none.mp hsource.symm

section Growth

variable {release : EvaluationEvent × CandidateReleaseCommand} {case' : EvaluationCase}
  {command' : StandardOutcomeCommand} {ledger' : List EvaluationEvent}
  {history' : List SavedOutcomes}

omit digest calendars history report in
theorem visibleReleases_mono (hselection : command.selectionEventId.isSome)
    (hselection' : command'.selectionEventId.isSome) (hgrown : ledger' <+: ledger)
    (hscope : case'.sameScopeAs case = true) (hcutoff : command'.cutoffAt ≤ command.cutoffAt)
    (h : release ∈ visibleReleases case' command' ledger' source) :
    release ∈ visibleReleases case command ledger source := by
  have hcandidate := command.candidateEventId_of_selection hselection
  have hcandidate' := command'.candidateEventId_of_selection hselection'
  obtain ⟨hhistory, hvisible⟩ := List.mem_filter.mp h
  rw [releaseOfSource, hcandidate', Bool.and_eq_true, decide_eq_true_eq, decide_eq_true_eq]
    at hvisible
  refine List.mem_filter.mpr ⟨?_, ?_⟩
  · obtain ⟨event, hevent, hrelease⟩ := List.mem_filterMap.mp hhistory
    refine List.mem_filterMap.mpr ⟨event, hgrown.subset hevent, ?_⟩
    split at hrelease
    · rename_i horiginal
      rw [if_pos ⟨horiginal.1, EvaluationCase.sameScopeAs_trans horiginal.2 hscope⟩]
      exact hrelease
    · exact nomatch hrelease
  · rw [releaseOfSource, hcandidate, Bool.and_eq_true, decide_eq_true_eq, decide_eq_true_eq]
    exact ⟨hvisible.1, hvisible.2.trans hcutoff⟩

omit calendars case command history report in
theorem releaseBelongs_mono {cutoff cutoff' : Instant} (hgrown : ledger' <+: ledger)
    (hcutoff : cutoff' ≤ cutoff) (hregistrations : retainedRegistrations digest release.1 ≠ [])
    (h : releaseBelongsToSelection digest ledger' source cutoff' release = .ok true) :
    releaseBelongsToSelection digest ledger source cutoff release = .ok true := by
  unfold releaseBelongsToSelection at h ⊢
  cases hresearch : researchOf ledger' release.2 with
  | none =>
    rw [hresearch] at h
    obtain ⟨_, hnone, -⟩ := bind_eq_ok.mp h
    exact absurd (require_eq_ok.mp hnone) hregistrations
  | some research =>
    obtain ⟨event, selectionEventId⟩ := research
    have hlater : researchOf ledger release.2 = some (event, selectionEventId) := by
      obtain ⟨found, hfound, hselection⟩ := bind_eq_some.mp hresearch
      exact bind_eq_some.mpr ⟨found, getDecisionEvent_of_prefix hgrown hfound,
        hselection⟩
    rw [hresearch] at h
    rw [hlater]
    obtain ⟨_, hlineage, h⟩ := bind_eq_ok.mp h
    obtain ⟨hscope, hobject, hcommitted⟩ := require_eq_ok.mp hlineage
    exact bind_eq_ok.mpr ⟨(), require_eq_ok.mpr ⟨hscope, hobject, hcommitted.trans hcutoff⟩, h⟩

/-- The registrations of a source cover its selected members. -/
def Covered (digest : String → String) (source : EvaluationEvent) : Prop :=
  ∀ securityId ∈ source.sourceMembers, ∃ registration ∈ retainedRegistrations digest source,
    registration.population = .selection ∧ registration.securityId = securityId

theorem Assessment.registrations_eq_nil
    (a : Assessment digest calendars case command ledger source history)
    (hcovered : Covered digest source) (hnone : retainedRegistrations digest source = []) :
    a.registrations = [] := by
  have hmembers : source.sourceMembers = [] := List.eq_nil_iff_forall_not_mem.mpr fun s hs => by
    obtain ⟨registration, hregistration, -⟩ := hcovered s hs
    rw [hnone] at hregistration
    exact List.not_mem_nil hregistration
  unfold registrations
  rw [hnone, List.filter_nil, ite_self, List.nil_append]
  refine List.eq_nil_iff_forall_not_mem.mpr fun registration hregistration => ?_
  obtain ⟨_, -, h⟩ := forall₂_mem_left (mapM_eq_ok.mp a.admitted_eq) hregistration
  obtain ⟨_, hmember, -⟩ := bind_eq_ok.mp h
  rw [require_eq_ok, hmembers] at hmember
  exact List.not_mem_nil hmember

/-- Registrations stay, from one report of a source to the next. -/
theorem Assessment.registrations_subset
    (a' : Assessment digest calendars case' command' ledger' source history')
    (a : Assessment digest calendars case command ledger source history)
    (hcovered : Covered digest source) (hgrown : ledger' <+: ledger)
    (hscope : case'.sameScopeAs case = true) (hcutoff : command'.cutoffAt ≤ command.cutoffAt) :
    a'.registrations ⊆ a.registrations := by
  by_cases hcandidate : command'.candidateEventId.isSome ∨ command.candidateEventId.isSome
  · have hnone := hcandidate.elim a'.registrations_eq a.registrations_eq
    rw [a'.registrations_eq_nil hcovered hnone]
    exact List.nil_subset _
  · obtain ⟨hcandidate', hcandidate⟩ := not_or.mp hcandidate
    have hselection' : command'.selectionEventId.isSome = true := by
      have hsource := command'.source_valid
      rw [Bool.eq_false_iff.mpr hcandidate'] at hsource
      exact Bool.eq_true_of_not_eq_false hsource
    have hselection : command.selectionEventId.isSome = true := by
      have hsource := command.source_valid
      rw [Bool.eq_false_iff.mpr hcandidate] at hsource
      exact Bool.eq_true_of_not_eq_false hsource
    intro registration hregistration
    rcases List.mem_append.mp hregistration with hselected | hreleased
    · exact List.mem_append_left _ hselected
    · obtain ⟨event, hevent, hregistration⟩ := List.mem_flatMap.mp hreleased
      refine List.mem_append_right _ (List.mem_flatMap.mpr ⟨event, ?_, hregistration⟩)
      obtain ⟨release, hvisible, rfl, hbelongs⟩ :=
        (mem_sourceReleases hselection' a'.releases_eq).mp hevent
      exact (mem_sourceReleases hselection a.releases_eq).mpr ⟨release,
        visibleReleases_mono hselection hselection' hgrown hscope hcutoff hvisible, rfl,
        releaseBelongs_mono hgrown hcutoff (List.ne_nil_of_mem hregistration) hbelongs⟩

end Growth

end Assessments

end StockProfiler.Evaluation
