import StockProfiler.Evaluation.OutcomeChain

/-!
# Runs of standard outcomes

Selections, releases, research and outcome commands are adjudicated and committed one after
another. The accepted reports of every source are a sound chain.
-/

namespace StockProfiler.Evaluation

variable {member : EvaluationMember}

/-- The reports of a source: they name one another, retain what they accept under identities that
keep their content, and continue one another. -/
structure ChainSound (chain : List SavedOutcomes) : Prop where
  lineage : Explained (fun earlier saved =>
    saved.command.previousEventId = earlier.getLast?.map (·.decisionEventId) ∧
      saved.report.previousEventId = saved.command.previousEventId ∧
        saved.report.reportVersion = earlier.length + 1) chain
  reports : ∀ saved ∈ chain, ReportSound saved.report
  evaluated : ∀ saved ∈ chain, ∃ calendar window, ∀ member ∈ saved.report.members,
    MemberEvaluated calendar window saved.command.standardQuantity saved.report.cutoffAt member
  accepted : ∀ saved ∈ chain, ∀ observation ∈ saved.command.observations,
    ∀ evidence ∈ observation.evidence, evidence ∈ saved.report.evidence
  evidence : ∀ first ∈ chain.flatMap (·.report.evidence),
    ∀ other ∈ chain.flatMap (·.report.evidence),
      first.fact.evidenceId = other.fact.evidenceId → first = other
  continued : chain.IsChain Continues

theorem chainSound_nil : ChainSound [] where
  lineage := explained_nil
  reports := fun _ h => absurd h List.not_mem_nil
  evaluated := fun _ h => absurd h List.not_mem_nil
  accepted := fun _ h => absurd h List.not_mem_nil
  evidence := fun _ h => absurd h List.not_mem_nil
  continued := .nil

section Chains

variable {observation : StandardObservation} {evidence : MarketEvidence} {digest : String → String}
  {calendars : String → Option StandardCalendar} {case : EvaluationCase}
  {ledger : List EvaluationEvent} {source : EvaluationEvent} {chain : List SavedOutcomes}
  {next : SavedOutcomes}

/-- The version of the last report is the length of the chain. -/
theorem ChainSound.version (h : ChainSound chain) :
    chain.getLast?.elim 1 (·.report.reportVersion + 1) = chain.length + 1 := by
  rcases List.eq_nil_or_concat chain with rfl | ⟨front, last, rfl⟩
  · rfl
  · rw [List.concat_eq_append] at h ⊢
    rw [List.getLast?_concat, Option.elim_some, (explained_snoc.mp h.lineage).2.2.2,
      List.length_append]
    rfl

/-- What the last report retains is available at every later cutoff. -/
theorem ChainSound.available (h : ChainSound chain)
    (a : Assessment digest calendars case next.command ledger source chain) :
    AvailableAt next.command.cutoffAt a.merged.retained := by
  cases hlast : chain.getLast? with
  | none =>
    have hbefore : AvailableAt next.command.cutoffAt (retainedEvidence chain).retained := by
      rw [retainedEvidence, hlast]
      intro _ _ hnone
      cases hnone
    exact a.mergedFrom.availableAt hbefore le_rfl
  | some previous =>
    refine a.mergedFrom.availableAt ?_ (a.contract previous hlast).1
    rw [retainedEvidence, hlast]
    exact (h.reports previous (List.mem_of_getLast? hlast)).available

/-- Evidence of a sound chain is filed under its identity. -/
theorem ChainSound.files (h : ChainSound chain)
    (hevidence : evidence ∈ chain.flatMap (·.report.evidence)) :
    Files (retainedEvidence chain).evidenceById evidence := by
  refine Dict.get?_ofLast_of_mem (List.mem_map_of_mem hevidence) fun other hother => ?_
  obtain ⟨found, hfound, hpair⟩ := List.mem_map.mp hother
  obtain ⟨hid, rfl⟩ := Prod.mk.inj hpair
  exact h.evidence found hfound evidence hevidence hid

theorem mem_evidence_of_observation {report : StandardOutcomeReport}
    (hmember : member ∈ report.members) (hobservation : member.observation = some observation)
    (hevidence : evidence ∈ observation.evidence) : evidence ∈ report.evidence :=
  List.mem_flatMap.mpr ⟨observation, List.mem_filterMap.mpr ⟨member, hmember, hobservation⟩,
    hevidence⟩

/-- Accepted evidence is retained, on a source whose registrations cover its members. -/
theorem Assessment.accepted_retained
    (a : Assessment digest calendars case next.command ledger source chain)
    (havailable : AvailableAt next.command.cutoffAt a.merged.retained)
    (hcovered : Covered digest source)
    (hreport : next.report = outcomeReport next.command chain.getLast? a.members)
    (hobservation : observation ∈ next.command.observations)
    (hevidence : evidence ∈ observation.evidence) : evidence ∈ next.report.evidence := by
  have hmember := a.observed observation hobservation
  obtain ⟨registration, hregistration, hpopulation, hsecurity⟩ := hcovered _ hmember
  have hselection : source.result.selection.isSome := by
    unfold EvaluationEvent.sourceMembers at hmember
    cases hselection : source.result.selection with
    | none =>
      rw [hselection] at hmember
      exact absurd hmember List.not_mem_nil
    | some selection => rfl
  have hregistered : registration ∈ a.registrations := by
    unfold Assessment.registrations
    rw [if_pos hselection]
    exact List.mem_append_left _
      (List.mem_filter.mpr ⟨hregistration, decide_eq_true hpopulation⟩)
  obtain ⟨member, hmember, hreports⟩ :=
    forall₂_mem_left (Assessment.reports_members havailable) hregistered
  have hmemberSecurity : member.securityId = observation.securityId :=
    (congrArg (fun identity => identity.2.2.2) hreports.identity).trans hsecurity
  have hfound : next.command.observations.find? (·.securityId = observation.securityId) =
      some observation := by
    cases hfound : next.command.observations.find? (·.securityId = observation.securityId) with
    | none =>
      exact absurd (decide_eq_true rfl) (List.find?_eq_none.mp hfound observation hobservation)
    | some other =>
      have hsame := List.find?_some hfound
      rw [decide_eq_true_eq] at hsame
      rw [List.inj_on_of_nodup_map a.distinct (List.mem_of_find?_eq_some hfound) hobservation hsame]
  have hretained := hreports.observation
  rw [hmemberSecurity, a.mergedFrom.retained, hfound] at hretained
  rw [hreport]
  refine mem_evidence_of_observation hmember hretained ?_
  rcases StandardObservation.mem_evidence.mp hevidence with hslot | hslot
  · obtain ⟨entry, hentry, rfl⟩ := Option.map_eq_some_iff.mp hslot
    refine StandardObservation.mem_evidence.mpr (.inl (Option.map_eq_some_iff.mpr ⟨entry, ?_, rfl⟩))
    exact (Option.orElse_eq_some _ _ _).mpr (.inl hentry)
  · obtain ⟨terminal, hterminal, rfl⟩ := Option.map_eq_some_iff.mp hslot
    refine StandardObservation.mem_evidence.mpr
      (.inr (Option.map_eq_some_iff.mpr ⟨terminal, ?_, rfl⟩))
    exact (Option.orElse_eq_some _ _ _).mpr (.inl hterminal)

/-- The evidence of a report is filed when its command is merged. -/
theorem ChainSound.files_next (h : ChainSound chain)
    (a : Assessment digest calendars case next.command ledger source chain)
    (hreport : next.report = outcomeReport next.command chain.getLast? a.members)
    (hevidence : evidence ∈ next.report.evidence) : Files a.merged.evidenceById evidence := by
  obtain ⟨observation, hobservation, hevidence⟩ := List.mem_flatMap.mp hevidence
  obtain ⟨member, hmember, hobservation⟩ := List.mem_filterMap.mp hobservation
  rw [hreport] at hmember
  obtain ⟨registration, -, hreports⟩ :=
    forall₂_mem_right (Assessment.reports_members (h.available a)) hmember
  have hretained := hreports.observation
  rw [hobservation, a.mergedFrom.retained] at hretained
  have hbefore : ∀ prior, (retainedEvidence chain).retained.get? member.securityId = some prior →
      ∀ evidence ∈ prior.evidence, Files a.merged.evidenceById evidence := by
    intro prior hprior evidence hevidence
    refine a.mergedFrom.filed evidence (h.files ?_)
    unfold retainedEvidence at hprior
    cases hlast : chain.getLast? with
    | none =>
      rw [hlast] at hprior
      exact nomatch hprior
    | some previous =>
      rw [hlast] at hprior
      exact List.mem_flatMap.mpr ⟨previous, List.mem_of_getLast? hlast,
        mem_evidence_of_retained hprior hevidence⟩
  split at hretained
  · rename_i incoming hfound
    cases hretained
    rcases StandardObservation.mem_evidence_mergedWith hevidence with hevidence | hevidence
    · exact a.mergedFrom.incoming incoming (List.mem_of_find?_eq_some hfound) evidence hevidence
    · obtain ⟨prior, hprior, hevidence⟩ := hevidence
      exact hbefore prior hprior evidence hevidence
  · exact hbefore observation hretained.symm evidence hevidence

/-- A report that continues the last one of a sound chain is appended to it. -/
theorem ChainSound.snoc (h : ChainSound chain)
    (a : Assessment digest calendars case next.command ledger source chain)
    (hreport : next.report = outcomeReport next.command chain.getLast? a.members)
    (hnodup : (a.members.map (·.evaluationId)).Nodup) (hcovered : Covered digest source)
    (hcontinues : ∀ previous ∈ chain.getLast?, Continues previous next) :
    ChainSound (chain ++ [next]) where
  lineage := by
    refine explained_snoc.mpr ⟨h.lineage, a.lineage, ?_, ?_⟩
    · rw [hreport]
      rfl
    · rw [hreport, ← h.version]
      rfl
  reports := by
    refine List.forall_mem_append.mpr ⟨h.reports, fun saved hsaved => ?_⟩
    rw [List.mem_singleton.mp hsaved, hreport]
    exact reportSound_of_assessment a (h.available a) hnodup
  evaluated := by
    refine List.forall_mem_append.mpr ⟨h.evaluated, fun saved hsaved => ?_⟩
    rw [List.mem_singleton.mp hsaved, hreport]
    refine ⟨a.calendar, a.window, fun member hmember => ?_⟩
    obtain ⟨_, -, hreports⟩ :=
      forall₂_mem_right (Assessment.reports_members (h.available a)) hmember
    exact hreports.evaluated
  accepted := by
    refine List.forall_mem_append.mpr ⟨h.accepted, fun saved hsaved => ?_⟩
    obtain rfl := List.mem_singleton.mp hsaved
    intro observation hobservation evidence hevidence
    exact a.accepted_retained (h.available a) hcovered hreport hobservation hevidence
  evidence := by
    have hfiled : ∀ evidence ∈ (chain ++ [next]).flatMap (·.report.evidence),
        Files a.merged.evidenceById evidence := by
      intro evidence hevidence
      rw [List.flatMap_append, List.flatMap_singleton] at hevidence
      rcases List.mem_append.mp hevidence with hevidence | hevidence
      · exact a.mergedFrom.filed evidence (h.files hevidence)
      · exact h.files_next a hreport hevidence
    intro first hfirst other hother hid
    have hfirst := hfiled first hfirst
    have hother := hfiled other hother
    unfold Files at hfirst hother
    rw [hid, hother] at hfirst
    exact (Option.some.inj hfirst).symm
  continued := by
    refine List.isChain_append.mpr ⟨h.continued, List.isChain_singleton _, ?_⟩
    intro previous hprevious other hother
    cases hother
    exact hcontinues previous hprevious

end Chains

/-- The reports of a source on a ledger. -/
def outcomeChain (ledger : List EvaluationEvent) (sourceEventId : String) : List SavedOutcomes :=
  outcomesOf sourceEventId (ledger.filter (·.correctsEventId = none))

section Committed

variable {case : EvaluationCase} {sourceEventId : String} {digest : String → String}
  {calendars : String → Option StandardCalendar} {ledger : List EvaluationEvent}
  {input : EvaluationInput} {event source : EvaluationEvent} {saved : SavedOutcomes}

/-- A report that was saved for a source in the scope of its case. -/
structure Reported (digest : String → String) (calendars : String → Option StandardCalendar)
    (earlier : List EvaluationEvent) (event : EvaluationEvent) (saved : SavedOutcomes)
    (source : EvaluationEvent) : Prop where
  source_eq : getDecisionEvent earlier saved.command.sourceEventId = some source
  scope : source.case.sameScopeAs event.case = true
  assessed : ∃ history, ∃ a : Assessment digest calendars event.case saved.command earlier source
    history, saved.report = outcomeReport saved.command history.getLast? a.members ∧
      AvailableAt saved.command.cutoffAt a.merged.retained

theorem registerEvaluationMembers_eq (case : EvaluationCase) (eventId : String)
    (result : EvaluationResult) :
    (registerEvaluationMembers digest case eventId result).selection = result.selection ∧
      (registerEvaluationMembers digest case eventId result).candidateRelease =
        result.candidateRelease ∧
      (registerEvaluationMembers digest case eventId result).standardOutcomes =
        result.standardOutcomes := by
  unfold registerEvaluationMembers
  dsimp only
  split
  · exact ⟨rfl, rfl, rfl⟩
  · exact ⟨rfl, rfl, rfl⟩

/-- A committed event has a new identity, and the result of its adjudication. -/
theorem adjudicated_of_commitEvaluation
    (h : commitEvaluation digest calendars ledger input = some event) :
    (∀ earlier ∈ ledger, earlier.decisionEventId ≠ event.decisionEventId) ∧
      ∃ result, adjudicate digest calendars ledger input = .ok result ∧
        event = buildEventFact digest input result := by
  unfold commitEvaluation at h
  split at h
  · exact nomatch h
  · rename_i hnew
    split at h
    · exact nomatch h
    · rename_i result hresult
      cases h
      exact ⟨fun earlier hearlier heq => hnew ⟨earlier, hearlier, heq⟩, result, hresult, rfl⟩

/-- An original event retains the registrations that its result admits. -/
theorem retainedRegistrations_buildEventFact {result : EvaluationResult}
    (horiginal : input.correctsEventId = none) (hnone : result.evaluationRegistrations = []) :
    retainedRegistrations digest (buildEventFact digest input result) =
      admissions digest input.case input.decisionEventId result := by
  unfold retainedRegistrations buildEventFact
  rw [if_pos horiginal]
  dsimp only
  by_cases hadmitted : admissions digest input.case input.decisionEventId result = []
  · have hsame : registerEvaluationMembers digest input.case input.decisionEventId result =
        result := by
      unfold registerEvaluationMembers
      dsimp only
      rw [if_pos hadmitted]
    rw [hsame, hsame, hnone, if_neg (not_not.mpr rfl), hadmitted]
  · have hsame : (registerEvaluationMembers digest input.case input.decisionEventId
        result).evaluationRegistrations = admissions digest input.case input.decisionEventId
          result := by
      unfold registerEvaluationMembers
      dsimp only
      rw [if_neg hadmitted]
    rw [hsame, if_pos hadmitted]

/-- The registrations of a committed original cover its selected members. -/
theorem covered_of_commitEvaluation
    (h : commitEvaluation digest calendars ledger input = some event)
    (horiginal : event.correctsEventId = none) : Covered digest event := by
  obtain ⟨-, result, hresult, rfl⟩ := adjudicated_of_commitEvaluation h
  have horiginal : input.correctsEventId = none := horiginal
  obtain ⟨_, -, hresult⟩ := bind_eq_ok.mp hresult
  have hnone : result.evaluationRegistrations = [] := by
    rw [← Except.ok.inj hresult]
  intro securityId hmember
  rw [retainedRegistrations_buildEventFact horiginal hnone]
  have hselection : (buildEventFact digest input result).result.selection = result.selection := by
    unfold buildEventFact
    rw [if_pos horiginal]
    exact (registerEvaluationMembers_eq input.case input.decisionEventId result).1
  unfold EvaluationEvent.sourceMembers at hmember
  rw [hselection] at hmember
  unfold admissions
  cases hselected : result.selection with
  | none =>
    rw [hselected] at hmember
    exact absurd hmember List.not_mem_nil
  | some selection =>
    rw [hselected] at hmember
    exact ⟨selectionRegistration digest input.case input.decisionEventId securityId,
      List.mem_append_left _ (List.mem_map_of_mem hmember), rfl, rfl⟩

/-- Saved outcomes are those of a command on a source. -/
theorem assessed_of_commitEvaluation
    (h : commitEvaluation digest calendars ledger input = some event)
    (hsaved : event.outcomes? = some saved) :
    assessStandardOutcomes digest calendars event.case saved.command ledger = .ok saved.report := by
  obtain ⟨-, result, hresult, rfl⟩ := adjudicated_of_commitEvaluation h
  obtain ⟨report, hreport, hresult⟩ := bind_eq_ok.mp hresult
  obtain ⟨command, hcommand, hsaved⟩ := bind_eq_some.mp hsaved
  obtain ⟨found, hfound, hsaved⟩ := bind_eq_some.mp hsaved
  cases hsaved
  have hcommand : input.case.standardOutcomes = some command := hcommand
  have houtcomes : (buildEventFact digest input result).result.standardOutcomes = report := by
    rw [← Except.ok.inj hresult]
    unfold buildEventFact
    dsimp only
    split
    · exact (registerEvaluationMembers_eq input.case input.decisionEventId _).2.2
    · rfl
  rw [houtcomes] at hfound
  unfold adjudicateOutcomes at hreport
  rw [hcommand] at hreport
  dsimp only at hreport
  change assessStandardOutcomes digest calendars input.case command ledger = .ok found
  cases hassessed : assessStandardOutcomes digest calendars input.case command ledger with
  | error reason =>
    rw [hassessed] at hreport
    exact nomatch hreport
  | ok assessed =>
    rw [hassessed, hfound] at hreport
    rw [Option.some.inj (Except.ok.inj hreport)]

/-- Events have identities of their own. Registrations of originals cover their members. Reports
were saved on their source, and those of one source are a sound chain. -/
structure LedgerSound (digest : String → String) (calendars : String → Option StandardCalendar)
    (ledger : List EvaluationEvent) : Prop where
  identities : (ledger.map (·.decisionEventId)).Nodup
  covered : ∀ event ∈ ledger, event.correctsEventId = none → Covered digest event
  reported : Explained (fun earlier event => event.correctsEventId = none →
    ∀ saved ∈ event.outcomes?, ∃ source, Reported digest calendars earlier event saved source)
    ledger
  chains : ∀ sourceEventId, ChainSound (outcomeChain ledger sourceEventId)

/-- A command finds its source on the ledger, as an original of its scope. -/
theorem source_of_assessStandardOutcomes {command : StandardOutcomeCommand}
    {report : StandardOutcomeReport}
    (h : assessStandardOutcomes digest calendars case command ledger = .ok report) :
    ∃ source, getDecisionEvent ledger command.sourceEventId = some source ∧
      source.case.sameScopeAs case = true ∧ source.correctsEventId = none ∧
        assessSource digest calendars case command ledger source = .ok report := by
  obtain ⟨source, hsource, h⟩ := bind_eq_ok.mp h
  rw [known_eq_ok, Option.filter_eq_some_iff] at hsource
  obtain ⟨hfound, havailable⟩ := hsource
  have havailable := of_decide_eq_true havailable
  exact ⟨source, hfound, havailable.1, havailable.2.1, h⟩

/-- The outcomes of a source see only the events of that source. -/
theorem outcomesOf_filter_congr {p q : EvaluationEvent → Bool}
    (h : ∀ event ∈ ledger, ∀ saved ∈ event.outcomes?,
      saved.command.sourceEventId = sourceEventId → p event = q event) :
    outcomesOf sourceEventId (ledger.filter p) = outcomesOf sourceEventId (ledger.filter q) := by
  unfold outcomesOf
  induction ledger with
  | nil => rfl
  | cons event ledger ih =>
    have ih := ih fun other hother => h other (List.mem_cons_of_mem _ hother)
    have hevent := h event (List.mem_cons_self ..)
    have hcons : ∀ r : EvaluationEvent → Bool,
        (((event :: ledger).filter r).filterMap (·.outcomes?)).filter
          (·.command.sourceEventId = sourceEventId) =
        (if r event then event.outcomes?.toList.filter
          (·.command.sourceEventId = sourceEventId) else []) ++
        ((ledger.filter r).filterMap (·.outcomes?)).filter
          (·.command.sourceEventId = sourceEventId) := by
      intro r
      rw [List.filter_cons]
      split
      · rw [List.filterMap_cons]
        cases event.outcomes? with
        | none => rfl
        | some saved => rw [Option.toList_some, ← List.filter_append, List.singleton_append]
      · rfl
    rw [hcons, hcons, ih]
    congr 1
    cases houtcomes : event.outcomes? with
    | none => rw [Option.toList_none, List.filter_nil, ite_self, ite_self]
    | some saved =>
      rw [houtcomes] at hevent
      by_cases hsource : saved.command.sourceEventId = sourceEventId
      · rw [hevent saved rfl hsource]
      · have hnone : [saved].filter (·.command.sourceEventId = sourceEventId) = [] :=
          List.filter_eq_nil_iff.mpr fun other hother heq =>
            hsource (List.mem_singleton.mp hother ▸ of_decide_eq_true heq)
        rw [Option.toList_some, hnone, ite_self, ite_self]

/-- The history of a command is the chain of its source. -/
theorem LedgerSound.history_eq (h : LedgerSound digest calendars ledger)
    (hsource : getDecisionEvent ledger sourceEventId = some source)
    (hscope : source.case.sameScopeAs case = true) :
    outcomesOf sourceEventId (standardEvaluationHistory ledger case) =
      outcomeChain ledger sourceEventId := by
  refine outcomesOf_filter_congr fun event hevent saved hsaved hid => ?_
  by_cases horiginal : event.correctsEventId = none
  · obtain ⟨earlier, hgrown, hreported⟩ := h.reported.of_mem hevent
    obtain ⟨other, hother⟩ := hreported horiginal saved hsaved
    have hfound := getDecisionEvent_of_prefix hgrown hother.source_eq
    rw [hid, hsource] at hfound
    cases hfound
    have hsame := EvaluationCase.sameScopeAs_trans
      (EvaluationCase.sameScopeAs_symm hother.scope) hscope
    obtain ⟨command, -, hsaved⟩ := bind_eq_some.mp hsaved
    obtain ⟨report, hreport, -⟩ := bind_eq_some.mp hsaved
    have hsome : event.result.standardOutcomes.isSome = true := by
      rw [hreport]
      rfl
    rw [decide_eq_true horiginal]
    exact decide_eq_true ⟨horiginal, hsame, hsome⟩
  · rw [decide_eq_false horiginal]
    exact decide_eq_false fun hevent => horiginal hevent.1

theorem outcomeChain_snoc (event : EvaluationEvent) (sourceEventId : String) :
    outcomeChain (ledger ++ [event]) sourceEventId = outcomeChain ledger sourceEventId ++
      if event.correctsEventId = none then
        event.outcomes?.toList.filter (·.command.sourceEventId = sourceEventId) else [] := by
  unfold outcomeChain outcomesOf
  rw [List.filter_append, List.filterMap_append, List.filter_append]
  congr 1
  by_cases horiginal : event.correctsEventId = none
  · have hself : [event].filter (·.correctsEventId = none) = [event] :=
      List.filter_eq_self.mpr fun item hitem =>
        decide_eq_true (List.mem_singleton.mp hitem ▸ horiginal)
    rw [hself, if_pos horiginal, List.filterMap_cons]
    cases event.outcomes? <;> rfl
  · have hnone : [event].filter (·.correctsEventId = none) = [] :=
      List.filter_eq_nil_iff.mpr fun item hitem heq =>
        horiginal (List.mem_singleton.mp hitem ▸ of_decide_eq_true heq)
    rw [hnone, if_neg horiginal]
    rfl

theorem exists_of_mem_outcomeChain (h : saved ∈ outcomeChain ledger sourceEventId) :
    ∃ event ∈ ledger,
      event.correctsEventId = none ∧ event.outcomes? = some saved ∧
        saved.command.sourceEventId = sourceEventId := by
  obtain ⟨hsaved, hid⟩ := List.mem_filter.mp h
  obtain ⟨event, hevent, hsaved⟩ := List.mem_filterMap.mp hsaved
  obtain ⟨hevent, horiginal⟩ := List.mem_filter.mp hevent
  exact ⟨event, hevent, of_decide_eq_true horiginal, hsaved, of_decide_eq_true hid⟩

/-- A committed report extends the chain of its source. -/
theorem LedgerSound.report (h : LedgerSound digest calendars ledger)
    (hassessed : assessStandardOutcomes digest calendars event.case saved.command ledger =
      .ok saved.report) :
    (∃ source, Reported digest calendars ledger event saved source) ∧
      ChainSound (outcomeChain ledger saved.command.sourceEventId ++ [saved]) := by
  obtain ⟨source, hsource, hscope, horiginal, hassessed⟩ :=
    source_of_assessStandardOutcomes hassessed
  have hchain := h.chains saved.command.sourceEventId
  obtain ⟨a, hreport, hnodup⟩ := exists_assessment hassessed (h.history_eq hsource hscope)
  have hcovered := h.covered source (List.mem_of_find?_eq_some hsource) horiginal
  refine ⟨⟨source, hsource, hscope, _, a, hreport, hchain.available a⟩,
    hchain.snoc a hreport hnodup hcovered fun previous hprevious => ?_⟩
  have hlast := Option.mem_def.mp hprevious
  have hmem := List.mem_of_getLast? hlast
  obtain ⟨earlierEvent, hevent, hold, hfound, hid⟩ := exists_of_mem_outcomeChain hmem
  obtain ⟨earlier, hgrown, hreported⟩ := h.reported.of_mem hevent
  obtain ⟨other, hother⟩ := hreported hold previous hfound
  have hsame := getDecisionEvent_of_prefix hgrown hother.source_eq
  rw [hid, hsource] at hsame
  cases hsame
  obtain ⟨history', a', hreport', havailable'⟩ := hother.assessed
  have hcutoff : previous.command.cutoffAt ≤ saved.command.cutoffAt := by
    have hcutoff := (a.contract previous hlast).1
    rw [hreport'] at hcutoff
    exact hcutoff
  exact continues_of_assessments a' a hlast hreport' hreport havailable' (hchain.available a)
    (hchain.reports previous hmem) hnodup (a'.registrations_subset a hcovered hgrown
      (EvaluationCase.sameScopeAs_trans (EvaluationCase.sameScopeAs_symm hother.scope) hscope)
      hcutoff)

/-- One commit keeps the ledger of evaluations sound. -/
theorem LedgerSound.snoc (h : LedgerSound digest calendars ledger)
    (hcommit : commitEvaluation digest calendars ledger input = some event) :
    LedgerSound digest calendars (ledger ++ [event]) := by
  obtain ⟨hnew, -⟩ := adjudicated_of_commitEvaluation hcommit
  refine ⟨?_, ?_, explained_snoc.mpr ⟨h.reported, fun _ saved hsaved => ?_⟩,
    fun sourceEventId => ?_⟩
  · rw [List.map_append]
    refine List.nodup_append.mpr ⟨h.identities, List.nodup_singleton _, fun a ha b hb => ?_⟩
    obtain ⟨earlier, hearlier, rfl⟩ := List.mem_map.mp ha
    exact List.mem_singleton.mp hb ▸ hnew earlier hearlier
  · refine List.forall_mem_append.mpr ⟨h.covered, fun other hother => ?_⟩
    rw [List.mem_singleton.mp hother]
    exact covered_of_commitEvaluation hcommit
  · exact (h.report (assessed_of_commitEvaluation hcommit hsaved)).1
  · rw [outcomeChain_snoc]
    split
    · cases hsaved : event.outcomes? with
      | none =>
        rw [Option.toList_none, List.filter_nil, List.append_nil]
        exact h.chains sourceEventId
      | some saved =>
        rw [Option.toList_some, List.filter_cons, List.filter_nil]
        split
        · rename_i hid
          obtain rfl := of_decide_eq_true hid
          exact (h.report (assessed_of_commitEvaluation hcommit hsaved)).2
        · rw [List.append_nil]
          exact h.chains sourceEventId
    · rw [List.append_nil]
      exact h.chains sourceEventId

end Committed

/-- The ledger after a case. -/
def appendEvaluation (digest : String → String) (calendars : String → Option StandardCalendar)
    (ledger : List EvaluationEvent) (input : EvaluationInput) : List EvaluationEvent :=
  match commitEvaluation digest calendars ledger input with
  | some event => ledger ++ [event]
  | none => ledger

/-- The ledger that cases leave, one after another. -/
def evaluationLedger (digest : String → String) (calendars : String → Option StandardCalendar)
    (inputs : List EvaluationInput) : List EvaluationEvent :=
  inputs.foldl (appendEvaluation digest calendars) []

/-- Whatever cases are adjudicated and committed, their ledger is sound. -/
theorem ledgerSound_evaluationLedger (digest : String → String)
    (calendars : String → Option StandardCalendar) (inputs : List EvaluationInput) :
    LedgerSound digest calendars (evaluationLedger digest calendars inputs) := by
  induction inputs using List.reverseRecOn with
  | nil =>
    exact ⟨List.nodup_nil, fun _ h => absurd h List.not_mem_nil, explained_nil,
      fun _ => chainSound_nil⟩
  | append_singleton inputs input ih =>
    rw [evaluationLedger, List.foldl_append, ← evaluationLedger, List.foldl_cons, List.foldl_nil,
      appendEvaluation]
    split
    · rename_i event hcommit
      exact ih.snoc hcommit
    · exact ih

/-- The reports of a source are append-only. They form one chain with cutoffs that do not decrease.
Members stay, an identity of evidence keeps its content, and counts add up. An outcome is resolved
after its maturity, from available evidence of its member, and is kept until a command corrects
evidence that is retained for it. -/
structure OutcomesAppendOnly (chain : List SavedOutcomes) : Prop where
  lineage : Explained (fun earlier saved =>
    saved.command.previousEventId = earlier.getLast?.map (·.decisionEventId) ∧
      saved.report.previousEventId = saved.command.previousEventId ∧
        saved.report.reportVersion = earlier.length + 1) chain
  cutoffs : chain.Pairwise fun first later => first.report.cutoffAt ≤ later.report.cutoffAt
  members : chain.Pairwise fun first later => ∀ member ∈ first.report.members,
    ∃ kept ∈ later.report.members, kept.identity = member.identity
  accepted : ∀ saved ∈ chain, ∀ observation ∈ saved.command.observations,
    ∀ evidence ∈ observation.evidence, evidence ∈ saved.report.evidence
  evidence : ∀ first ∈ chain.flatMap (·.report.evidence),
    ∀ other ∈ chain.flatMap (·.report.evidence),
      first.fact.evidenceId = other.fact.evidenceId → first = other
  retained : ∀ saved ∈ chain, ∀ member ∈ saved.report.members,
    member.observation = saved.report.retained.get? member.securityId
  evaluated : ∀ saved ∈ chain, ∃ calendar window, ∀ member ∈ saved.report.members,
    MemberEvaluated calendar window saved.command.standardQuantity saved.report.cutoffAt member
  mature : ∀ saved ∈ chain, ∀ member ∈ saved.report.members, member.state.isResolved = true →
    member.maturesAt ≤ saved.report.cutoffAt
  available : ∀ saved ∈ chain, ∀ evidence ∈ saved.report.evidence,
    evidence.fact.availableAt ≤ saved.report.cutoffAt
  balanced : ∀ saved ∈ chain, ∀ counts ∈ saved.report.populations, counts.2.Balanced
  kept : ∀ earlier first middle last later,
    chain = earlier ++ (first :: (middle ++ [last])) ++ later →
      ∀ member ∈ first.report.members, member.state.isResolved = true →
        (first :: (middle ++ [last])).IsChain
          (fun previous next => ¬next.Corrects previous member.securityId) →
        ∀ kept ∈ last.report.members, kept.evaluationId = member.evaluationId →
          kept.outcome = member.outcome

section Kept

variable {chain : List SavedOutcomes}

/-- Outcomes are kept through reports that continue one another without a correction. -/
theorem kept_of_isChain {first last : SavedOutcomes} {middle : List SavedOutcomes}
    (hcontinues : (first :: (middle ++ [last])).IsChain Continues)
    (hmember : member ∈ first.report.members) (hresolved : member.state.isResolved = true)
    (hcorrects : (first :: (middle ++ [last])).IsChain
      fun previous next => ¬next.Corrects previous member.securityId) {kept : EvaluationMember}
    (hkept : kept ∈ last.report.members) (hid : kept.evaluationId = member.evaluationId) :
    kept.outcome = member.outcome := by
  induction middle generalizing first member with
  | nil =>
    rw [List.nil_append, List.isChain_pair] at hcontinues hcorrects
    exact hcontinues.kept member hmember hresolved hcorrects kept hkept hid
  | cons next middle ih =>
    rw [List.cons_append, List.isChain_cons_cons] at hcontinues hcorrects
    obtain ⟨hnext, hcontinues⟩ := hcontinues
    obtain ⟨huncorrected, hcorrects⟩ := hcorrects
    obtain ⟨same, hsame, hidentity⟩ := hnext.members member hmember
    have hsameId : same.evaluationId = member.evaluationId := congrArg Prod.fst hidentity
    have hsecurity : same.securityId = member.securityId :=
      congrArg (fun identity => identity.2.2.2) hidentity
    have houtcome := hnext.kept member hmember hresolved huncorrected same hsame hsameId
    have hstate : same.state = member.state := congrArg MemberOutcome.state houtcome
    rw [← hsecurity] at hcorrects
    rw [← houtcome]
    exact ih hcontinues hsame (hstate ▸ hresolved) hcorrects (hid.trans hsameId.symm)

/-- A sound chain of outcomes is append-only. -/
theorem ChainSound.appendOnly (h : ChainSound chain) : OutcomesAppendOnly chain where
  lineage := h.lineage
  cutoffs := by
    have htrans : IsTrans SavedOutcomes fun first later =>
        first.report.cutoffAt ≤ later.report.cutoffAt := ⟨fun _ _ _ => le_trans⟩
    exact List.isChain_iff_pairwise.mp (h.continued.imp fun _ _ hnext => hnext.cutoff)
  members := by
    have htrans : IsTrans SavedOutcomes fun first later => ∀ member ∈ first.report.members,
        ∃ kept ∈ later.report.members, kept.identity = member.identity := by
      refine ⟨fun first middle last hmiddle hlast member hmember => ?_⟩
      obtain ⟨same, hsame, hidentity⟩ := hmiddle member hmember
      obtain ⟨kept, hkept, hkeptIdentity⟩ := hlast same hsame
      exact ⟨kept, hkept, hkeptIdentity.trans hidentity⟩
    exact List.isChain_iff_pairwise.mp (h.continued.imp fun _ _ hnext => hnext.members)
  accepted := h.accepted
  evidence := h.evidence
  retained := fun saved hsaved => (h.reports saved hsaved).retained
  evaluated := h.evaluated
  mature := fun saved hsaved member hmember hresolved => by
    refine ((h.reports saved hsaved).timely member hmember).mpr fun hpending => ?_
    rw [hpending] at hresolved
    exact nomatch hresolved
  available := fun saved hsaved evidence hevidence => by
    obtain ⟨observation, hobservation, hevidence⟩ := List.mem_flatMap.mp hevidence
    obtain ⟨member, hmember, hobservation⟩ := List.mem_filterMap.mp hobservation
    rw [(h.reports saved hsaved).retained member hmember] at hobservation
    exact (h.reports saved hsaved).available _ observation hobservation evidence hevidence
  balanced := fun saved hsaved => (h.reports saved hsaved).balanced
  kept := by
    rintro earlier first middle last later rfl member hmember hresolved hcorrects kept hkept hid
    have hcontinued := (List.isChain_append.mp (List.isChain_append.mp h.continued).1).2.1
    exact kept_of_isChain hcontinued hmember hresolved hcorrects hkept hid

end Kept

/-- Whatever cases are adjudicated and committed, the reports of every source are append-only. -/
theorem run_outcomesAppendOnly (digest : String → String)
    (calendars : String → Option StandardCalendar) (inputs : List EvaluationInput)
    (sourceEventId : String) :
    OutcomesAppendOnly (outcomeChain (evaluationLedger digest calendars inputs) sourceEventId) :=
  ((ledgerSound_evaluationLedger digest calendars inputs).chains sourceEventId).appendOnly

namespace SampleOutcomes

def session (day : ℤ) : Portfolio.MarketSession := ⟨day, day * microsecondsPerDay⟩

/-- A calendar of five sessions after the first one, and of one that is six months later. -/
def calendar : StandardCalendar where
  sessions := []
  terminalSessions := [session 0, session 2, session 3, session 4, session 5, session 6,
    session 184]
  terminalSessionCoverageThrough := 200

def costs : TradingCosts :=
  let free := Literal.zero
  ⟨0, 0, 0, 0, free.nonneg, free.nonneg, free.nonneg, free.nonneg⟩

def suspended (day : ℤ) : EntrySession where
  closedAt := (session day).closedAt
  buyable := false
  unavailableReason := some .suspended
  turnover := 0
  volume := 0

def bought : EntrySession where
  closedAt := (session 3).closedAt
  buyable := true
  turnover := 1000
  volume := 100
  costs := some costs

def entry : EntryEvidence :=
  { OutcomeEvidence.immediate "entry" (session 3).closedAt with sessions := [suspended 2, bought] }

def scope : DecisionCases.ResultAccessScope := .personal "user" "account"

def selection : EvaluationInput where
  decisionEventId := "selection"
  businessObjectId := "selection"
  case := { accessScope := some scope, knowledgeCutoff := 0 }
  selection := some ⟨0, ["security"]⟩
  committedAt := 0

def report (eventId : String) (previous : Option String) (day : ℤ)
    (entry : Option EntryEvidence) (terminal : Option TerminalEvidence) : EvaluationInput where
  decisionEventId := eventId
  businessObjectId := eventId
  case := {
    accessScope := some scope
    knowledgeCutoff := (session day).closedAt
    standardOutcomes := some {
      selectionEventId := some "selection"
      candidateEventId := none
      source_valid := Bool.false_ne_true.symm
      cutoffAt := (session day).closedAt
      marketCalendarVersion := "synthetic-market-calendar-v1"
      standardQuantity := 100
      quantity_pos := Literal.hundred.pos
      observations := [⟨"security", entry, terminal⟩]
      previousEventId := previous } }
  committedAt := (session day).closedAt

end SampleOutcomes

end StockProfiler.Evaluation
