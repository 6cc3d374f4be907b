import StockProfiler.Core.Records
import StockProfiler.Evaluation.ExitLedger
import StockProfiler.Evaluation.OutcomeChain

/-!
# Frozen forecasts

What one freeze adds to the forecasts of a registration, what an observation contains of them, and
which of them an evaluation is passed.
-/

namespace StockProfiler.Evaluation

variable {forecast : ExitForecast}

/-- Two frozen forecasts are of different lifecycles, or have other identities and other closes. -/
def DistinctFreezes (first other : ExitForecastFreeze) : Prop :=
  first.lifecycleId = other.lifecycleId →
    first.forecast.predictionId ≠ other.forecast.predictionId ∧
      first.forecast.cutoffAt ≠ other.forecast.cutoffAt

/-- Freezes of one registration: one thesis for a lifecycle, and one forecast for a close. -/
structure FreezesSound (freezes : List SavedExit) : Prop where
  theses : ((frozenTheses freezes).map (·.lifecycleId)).Nodup
  forecasts : (frozenForecasts freezes).Pairwise DistinctFreezes

theorem freezesSound_nil : FreezesSound [] := ⟨.nil, .nil⟩

section Freezes

variable {freezes : List SavedExit}

theorem FreezesSound.sublist {part : List SavedExit} (h : FreezesSound freezes)
    (hsub : part.Sublist freezes) : FreezesSound part where
  theses := h.theses.sublist ((hsub.flatMap _).map _)
  forecasts := h.forecasts.sublist (hsub.flatMap _)

theorem FreezesSound.nodup_keys (h : FreezesSound freezes) :
    (((frozenForecasts freezes).map fun item =>
      ((item.lifecycleId, item.forecast.predictionId), item.forecast)).map Prod.fst).Nodup := by
  rw [List.map_map]
  refine List.pairwise_map.mpr (h.forecasts.imp fun {first other} hdistinct heq => ?_)
  obtain ⟨hlifecycle, hprediction⟩ := Prod.mk.inj heq
  exact (hdistinct hlifecycle).1 hprediction

theorem FreezesSound.frozenPredictions_eq (h : FreezesSound freezes) :
    frozenPredictions freezes = (frozenForecasts freezes).map fun item =>
      ((item.lifecycleId, item.forecast.predictionId), item.forecast) :=
  Dict.ofLast_of_nodup h.nodup_keys

theorem FreezesSound.get?_frozenPredictions (h : FreezesSound freezes) {lifecycleId : String}
    {predictionId : String} :
    (frozenPredictions freezes).get? (lifecycleId, predictionId) = some forecast ↔
      ⟨lifecycleId, forecast⟩ ∈ frozenForecasts freezes ∧
        forecast.predictionId = predictionId := by
  rw [h.frozenPredictions_eq]
  constructor
  · intro hfound
    obtain ⟨item, hitem, heq⟩ := List.mem_map.mp (Dict.mem_of_get? hfound)
    obtain ⟨hkey, rfl⟩ := Prod.mk.inj heq
    obtain ⟨rfl, hprediction⟩ := Prod.mk.inj hkey
    exact ⟨hitem, hprediction⟩
  · rintro ⟨hitem, rfl⟩
    exact Dict.get?_of_mem h.nodup_keys (List.mem_map.mpr ⟨_, hitem, rfl⟩)

/-- What a freeze may add to sound freezes. -/
structure FreezeAdmitted (freezes : List SavedExit) (report : ExitReport) : Prop where
  theses : (report.theses.map (·.lifecycleId)).Nodup
  newTheses : ∀ thesis ∈ report.theses,
    thesis.lifecycleId ∉ (frozenTheses freezes).map (·.lifecycleId)
  oneClose : ∃ closedAt, ∀ item ∈ report.forecastFreezes, item.forecast.cutoffAt = closedAt
  forecasts : (report.forecastFreezes.map fun item =>
    (item.lifecycleId, item.forecast.cutoffAt)).Nodup
  newForecasts : ∀ item ∈ report.forecastFreezes,
    (frozenPredictions freezes).get? (item.lifecycleId, item.forecast.predictionId) = none ∧
      ∀ prior ∈ frozenPredictions freezes,
        ¬(prior.1.1 = item.lifecycleId ∧ prior.2.cutoffAt = item.forecast.cutoffAt)

/-- An admitted freeze keeps the freezes sound. -/
theorem FreezesSound.snoc (h : FreezesSound freezes) {saved : SavedExit}
    (hadmitted : FreezeAdmitted freezes saved.report) : FreezesSound (freezes ++ [saved]) where
  theses := by
    unfold frozenTheses
    rw [List.flatMap_append, List.flatMap_singleton, List.map_append]
    refine List.nodup_append.mpr ⟨h.theses, hadmitted.theses,
      fun first hfirst other hother heq => ?_⟩
    obtain ⟨thesis, hthesis, rfl⟩ := List.mem_map.mp hother
    exact hadmitted.newTheses thesis hthesis (heq ▸ hfirst)
  forecasts := by
    unfold frozenForecasts
    rw [List.flatMap_append, List.flatMap_singleton]
    refine List.pairwise_append.mpr ⟨h.forecasts, ?_, fun prior hprior item hitem => ?_⟩
    · obtain ⟨closedAt, hclosed⟩ := hadmitted.oneClose
      refine (List.pairwise_map.mp hadmitted.forecasts).imp_of_mem
        fun {first other} hfirst hother hne hlifecycle => ?_
      exact absurd (Prod.ext hlifecycle ((hclosed first hfirst).trans (hclosed other hother).symm))
        hne
    · obtain ⟨hnone, hcloses⟩ := hadmitted.newForecasts item hitem
      intro hlifecycle
      constructor
      · intro hprediction
        have hfound := h.get?_frozenPredictions.mpr ⟨hprior, hprediction⟩
        rw [hlifecycle, hnone] at hfound
        exact nomatch hfound
      · intro hclosed
        rw [h.frozenPredictions_eq] at hcloses
        exact hcloses _ (List.mem_map_of_mem hprior) ⟨hlifecycle, hclosed⟩

end Freezes

section Passed

variable {freezes history : List SavedExit} {cutoff : Instant} {lifecycleId : String}

/-- The forecasts that are frozen for a lifecycle. -/
def forecastsOf (freezes : List SavedExit) (lifecycleId : String) : List ExitForecast :=
  ((frozenForecasts freezes).filter (·.lifecycleId = lifecycleId)).map (·.forecast)

theorem mem_forecastsOf : forecast ∈ forecastsOf freezes lifecycleId ↔
    ⟨lifecycleId, forecast⟩ ∈ frozenForecasts freezes := by
  unfold forecastsOf
  constructor
  · intro h
    obtain ⟨item, hitem, rfl⟩ := List.mem_map.mp h
    obtain ⟨hitem, hlifecycle⟩ := List.mem_filter.mp hitem
    rw [← of_decide_eq_true hlifecycle]
    exact hitem
  · intro h
    exact List.mem_map.mpr ⟨_, List.mem_filter.mpr ⟨h, decide_eq_true rfl⟩, rfl⟩

theorem FreezesSound.pairwise_forecastsOf (h : FreezesSound freezes) :
    (forecastsOf freezes lifecycleId).Pairwise fun first other =>
      first.predictionId ≠ other.predictionId ∧ first.cutoffAt ≠ other.cutoffAt := by
  refine List.pairwise_map.mpr ((h.forecasts.filter _).imp_of_mem
    fun {first other} hfirst hother hdistinct => hdistinct ?_)
  have hfirst := of_decide_eq_true (List.mem_filter.mp hfirst).2
  have hother := of_decide_eq_true (List.mem_filter.mp hother).2
  exact hfirst.trans hother.symm

/-- The forecasts of a lifecycle that a cutoff passes on. -/
def passedForecasts (history : List SavedExit) (cutoff : Instant) (lifecycleId : String) :
    List ExitForecast :=
  ((committedExitForecasts history cutoff).get? lifecycleId).getD []

/-- What is passed on of sound freezes are the frozen forecasts of a lifecycle, by their closes. -/
theorem passedForecasts_eq (h : FreezesSound (passedFreezes history cutoff)) :
    passedForecasts history cutoff lifecycleId =
      (forecastsOf (passedFreezes history cutoff) lifecycleId).insertionSort
        fun first later => first.cutoffAt ≤ later.cutoffAt := by
  have hids : ((forecastsOf (passedFreezes history cutoff) lifecycleId).map
      fun forecast => (forecast.predictionId, forecast)).map Prod.fst |>.Nodup := by
    rw [List.map_map]
    exact List.pairwise_map.mpr (h.pairwise_forecastsOf.imp And.left)
  have hvalues : Dict.valuesOf ((frozenForecasts (passedFreezes history cutoff)).map fun item =>
      (item.lifecycleId, item.forecast)) lifecycleId =
      forecastsOf (passedFreezes history cutoff) lifecycleId := Dict.valuesOf_map _ _ _ _
  have hgroup := Dict.getD_group ((frozenForecasts (passedFreezes history cutoff)).map fun item =>
    (item.lifecycleId, item.forecast)) lifecycleId
  rw [hvalues] at hgroup
  unfold passedForecasts committedExitForecasts
  rw [Dict.get?_mapValues]
  cases hfound : (Dict.group ((frozenForecasts (passedFreezes history cutoff)).map fun item =>
      (item.lifecycleId, item.forecast))).get? lifecycleId with
  | none =>
    rw [hfound] at hgroup
    rw [← hgroup]
    rfl
  | some forecasts =>
    rw [hfound, Option.getD_some] at hgroup
    rw [Option.map_some, Option.getD_some, hgroup, forecastsById, Dict.ofLast_of_nodup hids,
      List.map_map]
    congr 1
    exact List.map_id _

variable (lifecycleId) in
/-- What is passed on of sound freezes is what was frozen of a lifecycle, in the order of closes. -/
theorem passedForecasts_spec (h : FreezesSound (passedFreezes history cutoff)) :
    (passedForecasts history cutoff lifecycleId).Pairwise (fun first later =>
        first.cutoffAt < later.cutoffAt) ∧
      ∀ forecast, forecast ∈ passedForecasts history cutoff lifecycleId ↔
        ⟨lifecycleId, forecast⟩ ∈ frozenForecasts (passedFreezes history cutoff) := by
  rw [passedForecasts_eq h]
  refine ⟨pairwise_lt_insertionSort _ ?_, fun forecast => ?_⟩
  · exact List.pairwise_map.mpr (h.pairwise_forecastsOf.imp And.right)
  · rw [List.mem_insertionSort]
    exact mem_forecastsOf

end Passed

section Assessments

variable {result : ExitPositionResult} {calendars : String → Option OrderedCalendar}
  {monthOf : Instant → String}
  {summarize : List ExitPositionResult → ExitPolicy → ℤ → Instant → Except String String}
  {ledger : List ExitEvent} {case : EvaluationCase} {command : ExitCommand} {policy : ExitPolicy}
  {report : ExitReport}

/-- The evaluations of the registration of a command that the command sees. -/
def seenBy (ledger : List ExitEvent) (case : EvaluationCase) (command : ExitCommand)
    (operation : ExitOperation) : List SavedExit :=
  ofRegistration command.registrationEventId operation (exitEvaluationHistory ledger case)

/-- A frozen forecast is of the session that is the latest one at the cutoff of its report. -/
def AtSessionClose (calendars : String → Option OrderedCalendar) (report : ExitReport)
    (item : ExitForecastFreeze) : Prop :=
  ∃ calendar ∈ calendars report.policy.marketCalendarVersion,
    ∃ session ∈ calendar.sessionAtOrBefore report.cutoffAt,
      session.closedAt = item.forecast.cutoffAt

/-- A freeze admits what it reports, at the close of a session. -/
theorem admitted_of_freezeExits
    (h : freezeExits calendars ledger case command policy = .ok report) :
    FreezeAdmitted (seenBy ledger case command .freeze) report ∧
      ∀ item ∈ report.forecastFreezes, AtSessionClose calendars report item := by
  obtain ⟨source, -, h⟩ := bind_eq_ok.mp h
  obtain ⟨_, -, h⟩ := bind_eq_ok.mp h
  obtain ⟨_, -, h⟩ := bind_eq_ok.mp h
  obtain ⟨calendar, hcalendar, h⟩ := bind_eq_ok.mp h
  obtain ⟨_, htheses, h⟩ := bind_eq_ok.mp h
  obtain ⟨_, hforward, h⟩ := bind_eq_ok.mp h
  obtain ⟨_, hchecked, h⟩ := bind_eq_ok.mp h
  obtain ⟨_, hforecasts, h⟩ := bind_eq_ok.mp h
  cases h
  have hforward := require_eq_ok.mp hforward
  have hsession : ∀ item ∈ command.forecastFreezes,
      (calendar.sessionAtOrBefore command.cutoffAt).map (·.closedAt) =
          some item.forecast.cutoffAt ∧
        (frozenPredictions (seenBy ledger case command .freeze)).get?
          (item.lifecycleId, item.forecast.predictionId) = none ∧
        ∀ prior ∈ frozenPredictions (seenBy ledger case command .freeze),
          ¬(prior.1.1 = item.lifecycleId ∧ prior.2.cutoffAt = item.forecast.cutoffAt) := by
    intro item hitem
    have hitem := forM_eq_ok.mp hchecked item hitem
    obtain ⟨position, -, hitem⟩ := bind_eq_ok.mp hitem
    obtain ⟨_, -, hitem⟩ := bind_eq_ok.mp hitem
    obtain ⟨_, hclose, hnew⟩ := bind_eq_ok.mp hitem
    exact ⟨(require_eq_ok.mp hclose).1, require_eq_ok.mp hnew⟩
  refine ⟨⟨require_eq_ok.mp htheses, fun thesis hthesis => ?_, ?_, require_eq_ok.mp hforecasts,
    fun item hitem => (hsession item hitem).2⟩, fun item hitem => ?_⟩
  · exact (of_decide_eq_true (hforward thesis hthesis)).2.2.2.2
  · cases hfound : calendar.sessionAtOrBefore command.cutoffAt with
    | none =>
      refine ⟨0, fun item hitem => ?_⟩
      have hclose := (hsession item hitem).1
      rw [hfound] at hclose
      exact nomatch hclose
    | some session =>
      refine ⟨session.closedAt, fun item hitem => ?_⟩
      have hclose := (hsession item hitem).1
      rw [hfound] at hclose
      exact (Option.some.inj hclose).symm
  · obtain ⟨session, hfound, hclose⟩ := Option.map_eq_some_iff.mp (hsession item hitem).1
    exact ⟨calendar, known_eq_ok.mp hcalendar, session, hfound, hclose⟩

/-- The freezes that are committed by a cutoff. -/
def committedBy (cutoff : Instant) (freezes : List SavedExit) : List SavedExit :=
  freezes.filter (·.committedAt ≤ cutoff)

/-- An observation has the forecasts of its lifecycle that some freezes have frozen by a cutoff. -/
structure ObservesFrozen (freezes : List SavedExit) (cutoff : Instant)
    (observation : ExitObservation) : Prop where
  complete : ∀ item ∈ frozenForecasts freezes, item.lifecycleId = observation.lifecycleId →
    item.forecast.cutoffAt ≤ cutoff → item.forecast ∈ observation.forecasts
  committed : ∀ forecast ∈ observation.forecasts,
    ⟨observation.lifecycleId, forecast⟩ ∈ frozenForecasts freezes

/-- Accepted observations have the committed forecasts, and only these. -/
theorem observesFrozen_of_observeExits
    (h : observeExits calendars ledger case command policy = .ok report)
    (hsound : FreezesSound (seenBy ledger case command .freeze)) {observation : ExitObservation}
    (hobservation : observation ∈ command.observations) :
    ObservesFrozen (committedBy command.cutoffAt (seenBy ledger case command .freeze))
      command.cutoffAt observation := by
  have hsound : FreezesSound (committedBy command.cutoffAt (seenBy ledger case command .freeze)) :=
    hsound.sublist List.filter_sublist
  obtain ⟨source, -, h⟩ := bind_eq_ok.mp h
  obtain ⟨_, -, h⟩ := bind_eq_ok.mp h
  obtain ⟨_, -, h⟩ := bind_eq_ok.mp h
  obtain ⟨accepted, haccepted, -⟩ := bind_eq_ok.mp h
  obtain ⟨before, after, hstep⟩ := step_of_foldlM haccepted hobservation
  obtain ⟨_, -, hstep⟩ := bind_eq_ok.mp hstep
  obtain ⟨_, -, hstep⟩ := bind_eq_ok.mp hstep
  obtain ⟨_, -, hstep⟩ := bind_eq_ok.mp hstep
  obtain ⟨_, -, hstep⟩ := bind_eq_ok.mp hstep
  obtain ⟨_, hcommitted, hstep⟩ := bind_eq_ok.mp hstep
  obtain ⟨_, hcomplete, -⟩ := bind_eq_ok.mp hstep
  have hfrozen : ∀ forecast ∈ observation.forecasts,
      (frozenPredictions (committedBy command.cutoffAt (seenBy ledger case command .freeze))).get?
        (observation.lifecycleId, forecast.predictionId) = some forecast := by
    intro forecast hforecast
    obtain ⟨found, hfound, hsame⟩ := bind_eq_ok.mp (forM_eq_ok.mp hcommitted forecast hforecast)
    have hsame := require_eq_ok.mp hsame
    rw [hsame] at hfound
    exact known_eq_ok.mp hfound
  have hcomplete := require_eq_ok.mp hcomplete
  constructor
  · intro item hitem hlifecycle hcutoff
    have hentry : ((item.lifecycleId, item.forecast.predictionId), item.forecast) ∈
        frozenPredictions (committedBy command.cutoffAt (seenBy ledger case command .freeze)) := by
      rw [hsound.frozenPredictions_eq]
      exact List.mem_map_of_mem hitem
    obtain ⟨forecast, hforecast, hid⟩ := List.mem_map.mp (hcomplete _ hentry hlifecycle hcutoff)
    have hfound := hfrozen forecast hforecast
    have hitemFound := hsound.get?_frozenPredictions.mpr ⟨hitem, rfl⟩
    have hid : forecast.predictionId = item.forecast.predictionId := hid
    rw [hlifecycle, ← hid, hfound] at hitemFound
    rw [← Option.some.inj hitemFound]
    exact hforecast
  · intro forecast hforecast
    exact (hsound.get?_frozenPredictions.mp (hfrozen forecast hforecast)).1

/-- A position is evaluated on the forecasts of its lifecycle that some freezes have frozen. -/
def EvaluatedOn (calendars : String → Option OrderedCalendar) (freezes : List SavedExit)
    (policy : ExitPolicy) (cutoff : Instant) (result : ExitPositionResult) : Prop :=
  ∃ position quantity observation passed,
    evaluateExitPosition calendars position policy quantity cutoff observation passed =
      .ok result ∧
    result.lifecycleId = position.lifecycleId ∧
    passed.Pairwise (fun first later => first.cutoffAt < later.cutoffAt) ∧
    ∀ forecast, forecast ∈ passed ↔ ⟨position.lifecycleId, forecast⟩ ∈ frozenForecasts freezes

/-- A result is of the position and the quantity that were evaluated. What was passed to it is
decided on where nothing is observed. -/
theorem result_of_evaluateExitPosition {position : StandardExitPosition} {quantity : ℚ}
    {cutoff : Instant} {observation : Option ExitObservation} {passed : List ExitForecast}
    (h : evaluateExitPosition calendars position policy quantity
      cutoff observation passed = .ok result) :
    (∃ state exposure, result.toStandardExitPosition =
      { position with state := state, currentExposure := exposure }) ∧
    result.initialQuantity = quantity ∧
    (result.observation = none →
      result.decisions = passed.map (unlabeledForecast wealthDecimals policy)) := by
  obtain ⟨evaluated, hevaluated, h⟩ := bind_eq_ok.mp h
  cases h
  cases observation with
  | none =>
    cases hevaluated
    exact ⟨⟨_, _, rfl⟩, rfl, fun _ => rfl⟩
  | some observation =>
    obtain ⟨_, -, hevaluated⟩ := bind_eq_ok.mp hevaluated
    obtain ⟨_, -, hevaluated⟩ := bind_eq_ok.mp hevaluated
    cases hevaluated
    exact ⟨⟨_, _, rfl⟩, rfl, nofun⟩

/-- The freezes that an evaluation passes on are the seen ones that its cutoff passes on. -/
theorem passedFreezes_filter (history : List SavedExit) (registrationEventId : Option String)
    (cutoff : Instant) :
    passedFreezes (history.filter (·.command.registrationEventId = registrationEventId)) cutoff =
      passedFreezes (ofRegistration registrationEventId .freeze history) cutoff := by
  unfold passedFreezes ofRegistration
  rw [List.filter_filter, List.filter_filter]
  refine List.filter_congr fun saved _ => ?_
  rw [← Bool.decide_and, ← Bool.decide_and, decide_eq_decide]
  tauto

/-- Every position of a population is evaluated on the frozen forecasts that are passed on. -/
theorem evaluatedOn_of_evaluateExits
    (h : evaluateExits calendars monthOf summarize ledger case command policy = .ok report)
    (hsound : FreezesSound (seenBy ledger case command .freeze))
    (hresult : result ∈ report.positions) :
    EvaluatedOn calendars (passedFreezes (seenBy ledger case command .freeze) command.cutoffAt)
      report.policy command.cutoffAt result := by
  have hpassed : FreezesSound (passedFreezes (seenBy ledger case command .freeze)
      command.cutoffAt) := hsound.sublist List.filter_sublist
  obtain ⟨_, -, h⟩ := bind_eq_ok.mp h
  obtain ⟨_, -, h⟩ := bind_eq_ok.mp h
  obtain ⟨positions, hpositions, h⟩ := bind_eq_ok.mp h
  obtain ⟨disposition, -, h⟩ := bind_eq_ok.mp h
  cases h
  obtain ⟨⟨lifecycleId, position, quantity⟩, hentry, hevaluated⟩ :=
    forall₂_mem_right (mapM_eq_ok.mp hpositions) hresult
  have hlifecycle : lifecycleId = position.lifecycleId := by
    obtain ⟨entry, -, heq⟩ := List.mem_map.mp (Dict.mem_ofLast hentry)
    obtain ⟨rfl, rfl⟩ := Prod.mk.inj heq
    rfl
  subst hlifecycle
  have hsame : passedFreezes ((exitEvaluationHistory ledger case).filter
      (·.command.registrationEventId = command.registrationEventId)) command.cutoffAt =
      passedFreezes (seenBy ledger case command .freeze) command.cutoffAt :=
    passedFreezes_filter _ _ _
  rw [← hsame] at hpassed ⊢
  have hspec := passedForecasts_spec position.lifecycleId hpassed
  obtain ⟨⟨state, exposure, hposition⟩, -⟩ := result_of_evaluateExitPosition hevaluated
  have hlifecycle := congrArg StandardExitPosition.lifecycleId hposition
  exact ⟨position, quantity, _, _, hevaluated, hlifecycle, hspec⟩

end Assessments

end StockProfiler.Evaluation
