import StockProfiler.Evaluation.ExitCausality
import StockProfiler.Evaluation.ExitFreezes

/-!
# Runs of exit evaluations

Policies are registered, forecasts and theses are frozen, paths are observed and populations are
evaluated, one after another. The forecasts of a registration stay as they were frozen, and every
observation and every evaluation has the ones that it may see.
-/

namespace StockProfiler.Evaluation

/-- The original freezes of a registration on a ledger. -/
def registeredFreezes (ledger : List ExitEvent) (registrationEventId : Option String) :
    List SavedExit :=
  ofRegistration registrationEventId .freeze
    ((ledger.filter (·.correctsEventId = none)).filterMap (·.exit?))

/-- An event accepts the observations that have the forecasts committed before it. -/
def ObservesCommitted (earlier : List ExitEvent) (event : ExitEvent) : Prop :=
  ∀ saved ∈ event.exit?, saved.command.operation = .observe →
    ∀ observation ∈ saved.command.observations,
      ObservesFrozen (committedBy saved.command.cutoffAt
        (registeredFreezes earlier saved.command.registrationEventId)) saved.command.cutoffAt
        observation

/-- An event evaluates positions on the forecasts that its cutoff passes on. -/
def EvaluatesPassed (calendars : String → Option OrderedCalendar) (earlier : List ExitEvent)
    (event : ExitEvent) : Prop :=
  ∀ saved ∈ event.exit?, saved.command.operation = .evaluate →
    ∀ result ∈ saved.report.positions,
      EvaluatedOn calendars (passedFreezes
        (registeredFreezes earlier saved.command.registrationEventId) saved.command.cutoffAt)
        saved.report.policy saved.command.cutoffAt result

/-- An event is in the scope of the registration that it names. -/
def InScope (ledger : List ExitEvent) (event : ExitEvent) : Prop :=
  ∀ saved ∈ event.exit?, saved.command.operation ≠ .register →
    ∃ root ∈ ledger, some root.decisionEventId = saved.command.registrationEventId ∧
      root.case.sameScopeAs event.case = true

/-- Events have identities of their own, and are in the scope of their registration. Its freezes
are sound, and what was observed and evaluated has the forecasts of them that it may see. -/
structure ExitLedgerSound (calendars : String → Option OrderedCalendar)
    (ledger : List ExitEvent) : Prop where
  identities : (ledger.map (·.decisionEventId)).Nodup
  inScope : ∀ event ∈ ledger, InScope ledger event
  freezes : ∀ registrationEventId, FreezesSound (registeredFreezes ledger registrationEventId)
  closes : ∀ registrationEventId, ∀ saved ∈ registeredFreezes ledger registrationEventId,
    ∀ item ∈ saved.report.forecastFreezes, AtSessionClose calendars saved.report item
  observed : Explained ObservesCommitted ledger
  evaluated : Explained (EvaluatesPassed calendars) ledger

section Ledgers

variable {calendars : String → Option OrderedCalendar} {monthOf : Instant → String}
  {summarize : List ExitPositionResult → ExitPolicy → ℤ → Instant → Except String String}
  {ledger : List ExitEvent} {case : EvaluationCase} {command : ExitCommand} {policy : ExitPolicy}
  {input : ExitInput} {event root : ExitEvent} {saved : SavedExit}

theorem exists_root_of_registeredPolicy (h : registeredPolicy ledger case command = .ok policy) :
    ∃ root ∈ ledger, some root.decisionEventId = command.registrationEventId ∧
      root.case.sameScopeAs case = true := by
  obtain ⟨registration, hfound, -⟩ := bind_eq_ok.mp h
  obtain ⟨hfound, -⟩ := Option.filter_eq_some_iff.mp (known_eq_ok.mp hfound)
  have hid := List.find?_some hfound
  rw [decide_eq_true_eq] at hid
  obtain ⟨root, hroot, hsaved⟩ := List.mem_filterMap.mp (List.mem_of_find?_eq_some hfound)
  obtain ⟨hroot, hscope⟩ := List.mem_filter.mp hroot
  obtain ⟨evaluation, -, rfl⟩ := Option.map_eq_some_iff.mp hsaved
  exact ⟨root, hroot, hid, (of_decide_eq_true hscope).2⟩

/-- What a command sees of its registration is all that was frozen of it. -/
theorem ExitLedgerSound.seenBy_eq (h : ExitLedgerSound calendars ledger) (hroot : root ∈ ledger)
    (hid : some root.decisionEventId = command.registrationEventId)
    (hscope : root.case.sameScopeAs case = true) :
    seenBy ledger case command .freeze =
      registeredFreezes ledger command.registrationEventId := by
  refine recordsOf_congr fun event hevent saved hsaved hkeep => ?_
  obtain ⟨hoperation, hregistration⟩ := of_decide_eq_true hkeep
  have hne : saved.command.operation ≠ .register := by
    rw [hoperation]
    exact nofun
  obtain ⟨other, hother, hotherId, hotherScope⟩ := h.inScope event hevent saved hsaved hne
  rw [hregistration, ← hid] at hotherId
  obtain rfl := List.inj_on_of_nodup_map h.identities hother hroot (Option.some.inj hotherId)
  have hsame :=
    EvaluationCase.sameScopeAs_trans (EvaluationCase.sameScopeAs_symm hotherScope) hscope
  rw [decide_eq_decide]
  exact and_iff_left hsame

/-- A saved exit evaluation was assessed on the ledger before it. -/
theorem assessed_of_exitEventOf
    (h : exitEventOf calendars monthOf summarize ledger input = some event)
    (hsaved : event.exit? = some saved) : event.correctsEventId = none ∧
      assessExitEvaluation calendars monthOf summarize ledger event.case saved.command =
        .ok saved.report := by
  cases input with
  | other other =>
    cases h
    exact nomatch hsaved
  | exit decisionEventId businessObjectId accessScope command committedAt =>
    unfold exitEventOf at h
    dsimp only at h
    split at h
    · exact nomatch h
    · rename_i report hreport
      cases h
      cases hsaved
      exact ⟨rfl, hreport⟩

theorem registeredFreezes_snoc (event : ExitEvent) (registrationEventId : Option String) :
    registeredFreezes (ledger ++ [event]) registrationEventId =
      registeredFreezes ledger registrationEventId ++
        if event.correctsEventId = none then
          ofRegistration registrationEventId .freeze event.exit?.toList else [] := by
  refine (recordsOf_append [event]).trans (congrArg _ ?_)
  rw [recordsOf_singleton]
  by_cases horiginal : event.correctsEventId = none
  · rw [if_pos (decide_eq_true horiginal), if_pos horiginal]
    rfl
  · rw [if_neg horiginal, if_neg fun h => horiginal (of_decide_eq_true h)]

section Assessed

variable (h : ExitLedgerSound calendars ledger)
  (hassessed : assessExitEvaluation calendars monthOf summarize ledger event.case saved.command =
    .ok saved.report)
include hassessed

/-- An assessed command is in the scope of its registration. -/
theorem inScope_of_assessExitEvaluation (hne : saved.command.operation ≠ .register) :
    ∃ root ∈ ledger, some root.decisionEventId = saved.command.registrationEventId ∧
      root.case.sameScopeAs event.case = true := by
  unfold assessExitEvaluation at hassessed
  split at hassessed
  · rename_i hoperation
    exact absurd hoperation hne
  all_goals
    obtain ⟨policy, hpolicy, -⟩ := bind_eq_ok.mp hassessed
    exact exists_root_of_registeredPolicy hpolicy

include h

/-- An assessed command sees the freezes of its registration. -/
theorem ExitLedgerSound.seenBy_of_assessed (hne : saved.command.operation ≠ .register) :
    seenBy ledger event.case saved.command .freeze =
      registeredFreezes ledger saved.command.registrationEventId := by
  obtain ⟨root, hroot, hid, hscope⟩ := inScope_of_assessExitEvaluation hassessed hne
  exact h.seenBy_eq hroot hid hscope

/-- A freeze that is appended is admitted, at the closes of sessions. -/
theorem ExitLedgerSound.freeze (hoperation : saved.command.operation = .freeze) :
    FreezeAdmitted (registeredFreezes ledger saved.command.registrationEventId) saved.report ∧
      ∀ item ∈ saved.report.forecastFreezes, AtSessionClose calendars saved.report item := by
  rw [← h.seenBy_of_assessed hassessed (hoperation ▸ nofun)]
  unfold assessExitEvaluation at hassessed
  rw [hoperation] at hassessed
  obtain ⟨policy, -, hassessed⟩ := bind_eq_ok.mp hassessed
  exact admitted_of_freezeExits hassessed

/-- An observation that is appended has the committed forecasts. -/
theorem ExitLedgerSound.observe (hoperation : saved.command.operation = .observe) :
    ∀ observation ∈ saved.command.observations,
      ObservesFrozen (committedBy saved.command.cutoffAt
        (registeredFreezes ledger saved.command.registrationEventId)) saved.command.cutoffAt
        observation := by
  have hsound := h.freezes saved.command.registrationEventId
  rw [← h.seenBy_of_assessed hassessed (hoperation ▸ nofun)] at hsound ⊢
  unfold assessExitEvaluation at hassessed
  rw [hoperation] at hassessed
  obtain ⟨policy, -, hassessed⟩ := bind_eq_ok.mp hassessed
  exact fun observation => observesFrozen_of_observeExits hassessed hsound

/-- An evaluation that is appended is on the forecasts that it passes on. -/
theorem ExitLedgerSound.evaluate (hoperation : saved.command.operation = .evaluate) :
    ∀ result ∈ saved.report.positions,
      EvaluatedOn calendars (passedFreezes
        (registeredFreezes ledger saved.command.registrationEventId) saved.command.cutoffAt)
        saved.report.policy saved.command.cutoffAt result := by
  have hsound := h.freezes saved.command.registrationEventId
  rw [← h.seenBy_of_assessed hassessed (hoperation ▸ nofun)] at hsound ⊢
  unfold assessExitEvaluation at hassessed
  rw [hoperation] at hassessed
  obtain ⟨policy, -, hassessed⟩ := bind_eq_ok.mp hassessed
  exact fun result => evaluatedOn_of_evaluateExits hassessed hsound

end Assessed

theorem ExitLedgerSound.freezes_snoc (h : ExitLedgerSound calendars ledger)
    (hevent : exitEventOf calendars monthOf summarize ledger input = some event)
    (registrationEventId : Option String) :
    FreezesSound (registeredFreezes (ledger ++ [event]) registrationEventId) ∧
      ∀ saved ∈ registeredFreezes (ledger ++ [event]) registrationEventId,
        ∀ item ∈ saved.report.forecastFreezes, AtSessionClose calendars saved.report item := by
  have hold : FreezesSound (registeredFreezes ledger registrationEventId ++ []) ∧
      ∀ saved ∈ registeredFreezes ledger registrationEventId ++ [],
        ∀ item ∈ saved.report.forecastFreezes, AtSessionClose calendars saved.report item := by
    rw [List.append_nil]
    exact ⟨h.freezes registrationEventId, h.closes registrationEventId⟩
  rw [registeredFreezes_snoc]
  split
  · cases hsaved : event.exit? with
    | none => exact hold
    | some saved =>
      unfold ofRegistration
      rw [Option.toList_some, List.filter_cons, List.filter_nil]
      split
      · rename_i hkeep
        obtain ⟨hoperation, rfl⟩ := of_decide_eq_true hkeep
        obtain ⟨hadmitted, hcloses⟩ := h.freeze (assessed_of_exitEventOf hevent hsaved).2 hoperation
        refine ⟨(h.freezes _).snoc hadmitted, List.forall_mem_append.mpr ⟨h.closes _, ?_⟩⟩
        intro other hother
        rw [List.mem_singleton.mp hother]
        exact hcloses
      · exact hold
  · exact hold

/-- One new event keeps the ledger of exits sound. -/
theorem ExitLedgerSound.snoc (h : ExitLedgerSound calendars ledger)
    (hevent : exitEventOf calendars monthOf summarize ledger input = some event)
    (hnew : event.decisionEventId ∉ ledger.map (·.decisionEventId)) :
    ExitLedgerSound calendars (ledger ++ [event]) where
  identities := by
    rw [List.map_append]
    refine List.nodup_append.mpr ⟨h.identities, List.nodup_singleton _,
      fun id hid other hother heq => ?_⟩
    rw [heq, List.mem_singleton.mp hother] at hid
    exact hnew hid
  inScope := by
    refine List.forall_mem_append.mpr ⟨fun earlier hearlier saved hsaved hne => ?_, ?_⟩
    · obtain ⟨root, hroot, hid, hscope⟩ := h.inScope earlier hearlier saved hsaved hne
      exact ⟨root, List.mem_append_left _ hroot, hid, hscope⟩
    · intro last hlast saved hsaved hne
      rw [List.mem_singleton.mp hlast] at hsaved ⊢
      obtain ⟨-, hassessed⟩ := assessed_of_exitEventOf hevent hsaved
      obtain ⟨root, hroot, hid, hscope⟩ := inScope_of_assessExitEvaluation hassessed hne
      exact ⟨root, List.mem_append_left _ hroot, hid, hscope⟩
  freezes := fun registrationEventId => (h.freezes_snoc hevent registrationEventId).1
  closes := fun registrationEventId => (h.freezes_snoc hevent registrationEventId).2
  observed := by
    refine explained_snoc.mpr ⟨h.observed, fun saved hsaved hoperation => ?_⟩
    exact h.observe (assessed_of_exitEventOf hevent hsaved).2 hoperation
  evaluated := by
    refine explained_snoc.mpr ⟨h.evaluated, fun saved hsaved hoperation => ?_⟩
    exact h.evaluate (assessed_of_exitEventOf hevent hsaved).2 hoperation

theorem exitLedgerSound_nil : ExitLedgerSound calendars [] where
  identities := .nil
  inScope := fun _ h => absurd h List.not_mem_nil
  freezes := fun _ => freezesSound_nil
  closes := fun _ _ h => absurd h List.not_mem_nil
  observed := explained_nil
  evaluated := explained_nil

theorem ExitLedgerSound.append (h : ExitLedgerSound calendars ledger) :
    ExitLedgerSound calendars (appendExit calendars monthOf summarize ledger input) := by
  unfold appendExit
  split
  · exact h
  · rename_i event hevent
    split
    · exact h
    · rename_i hnew
      exact h.snoc hevent hnew

end Ledgers

section Runs

variable (calendars : String → Option OrderedCalendar) (monthOf : Instant → String)
  (summarize : List ExitPositionResult → ExitPolicy → ℤ → Instant → Except String String)

/-- Whatever inputs are committed, their ledger is sound. -/
theorem exitLedgerSound_exitLedger (inputs : List ExitInput) :
    ExitLedgerSound calendars (exitLedger calendars monthOf summarize inputs) := by
  induction inputs using List.reverseRecOn with
  | nil => exact exitLedgerSound_nil
  | append_singleton inputs input ih =>
    rw [exitLedger, List.foldl_append, ← exitLedger]
    exact ih.append

theorem exitLedger_prefix (inputs more : List ExitInput) :
    exitLedger calendars monthOf summarize inputs <+:
      exitLedger calendars monthOf summarize (inputs ++ more) := by
  induction more using List.reverseRecOn with
  | nil => rw [List.append_nil]
  | append_singleton more input ih =>
    refine ih.trans ?_
    rw [← List.append_assoc, exitLedger, exitLedger, List.foldl_append (l := inputs ++ more)]
    generalize (inputs ++ more).foldl _ _ = ledger
    change ledger <+: appendExit calendars monthOf summarize ledger input
    unfold appendExit
    split
    · exact List.prefix_refl _
    · split
      · exact List.prefix_refl _
      · exact List.prefix_append _ _

/-- The forecasts of every registration are frozen. A lifecycle has one thesis, and one forecast
for the close of a session. An observation that is accepted has the forecasts of its lifecycle
that were committed by its cutoff, and only these. A position is evaluated on the forecasts of its
lifecycle whose freeze was committed by the cutoff of the evaluation and was itself frozen at a
cutoff that is no later. -/
structure ExitForecastsFrozen (ledger : List ExitEvent) : Prop where
  theses : ∀ registrationEventId,
    ((frozenTheses (registeredFreezes ledger registrationEventId)).map (·.lifecycleId)).Nodup
  forecasts : ∀ registrationEventId,
    (frozenForecasts (registeredFreezes ledger registrationEventId)).Pairwise DistinctFreezes
  closes : ∀ registrationEventId, ∀ saved ∈ registeredFreezes ledger registrationEventId,
    ∀ item ∈ saved.report.forecastFreezes, AtSessionClose calendars saved.report item
  observed : Explained ObservesCommitted ledger
  evaluated : Explained (EvaluatesPassed calendars) ledger

/-- Whatever inputs are committed, forecasts are frozen; and they stay as they are in every longer
run. -/
theorem run_exitForecastsFrozen (inputs : List ExitInput) :
    ExitForecastsFrozen calendars (exitLedger calendars monthOf summarize inputs) ∧
      ∀ more registrationEventId,
        frozenForecasts (registeredFreezes (exitLedger calendars monthOf summarize inputs)
            registrationEventId) <+:
          frozenForecasts (registeredFreezes (exitLedger calendars monthOf summarize
            (inputs ++ more)) registrationEventId) := by
  have hsound := exitLedgerSound_exitLedger calendars monthOf summarize inputs
  refine ⟨⟨fun _ => (hsound.freezes _).theses, fun _ => (hsound.freezes _).forecasts, hsound.closes,
    hsound.observed, hsound.evaluated⟩, fun more registrationEventId => ?_⟩
  obtain ⟨later, hlater⟩ := exitLedger_prefix calendars monthOf summarize inputs more
  rw [← hlater]
  refine ⟨frozenForecasts (registeredFreezes later registrationEventId), ?_⟩
  have happend : registeredFreezes (exitLedger calendars monthOf summarize inputs ++ later)
      registrationEventId = registeredFreezes (exitLedger calendars monthOf summarize inputs)
        registrationEventId ++ registeredFreezes later registrationEventId := recordsOf_append later
  rw [happend]
  exact List.flatMap_append.symm

end Runs

/-- An event evaluates positions on all forecasts that are committed by its cutoff. -/
def EvaluatesCommitted (calendars : String → Option OrderedCalendar) (earlier : List ExitEvent)
    (event : ExitEvent) : Prop :=
  ∀ saved ∈ event.exit?, saved.command.operation = .evaluate →
    ∀ result ∈ saved.report.positions,
      EvaluatedOn calendars (committedBy saved.command.cutoffAt
        (registeredFreezes earlier saved.command.registrationEventId)) saved.report.policy
        saved.command.cutoffAt result

/-- An event accepts the observations that have all forecasts frozen before it, through its
cutoff. -/
def ObservesEarlier (earlier : List ExitEvent) (event : ExitEvent) : Prop :=
  ∀ saved ∈ event.exit?, saved.command.operation = .observe →
    ∀ observation ∈ saved.command.observations,
      ∀ item ∈ frozenForecasts (registeredFreezes earlier saved.command.registrationEventId),
        item.lifecycleId = observation.lifecycleId →
          item.forecast.cutoffAt ≤ saved.command.cutoffAt →
            item.forecast ∈ observation.forecasts

namespace SampleExitRuns

def hour : ℤ := 3600000000

def close (day : ℕ) : Instant := (SampleExits.session day).closedAt

def monthOf (instant : Instant) : String := if instant < 0 then "1969-12" else "1970-01"

def calendars (_ : String) : Option OrderedCalendar := some SampleExits.calendar

def summarize (_ : List ExitPositionResult) (_ : ExitPolicy) (_ : ℤ) (_ : Instant) :
    Except String String := .ok "RECORDED"

def scope : DecisionCases.ResultAccessScope := .personal "user" "account"

/-- The standard outcomes that have the position, saved in the first session. -/
def standard : EvaluationEvent where
  decisionEventId := "standard"
  businessObjectId := "standard"
  case := {
    accessScope := some scope
    knowledgeCutoff := close 0
    standardOutcomes := some {
      candidateEventId := some "source"
      cutoffAt := close 0
      marketCalendarVersion := "calendar"
      standardQuantity := 100
      quantity_pos := Literal.hundred.pos
      observations := []
      selectionEventId := none
      source_valid := Bool.false_ne_true } }
  result := {
    standardOutcomes := some {
      selectionEventId := none
      candidateEventId := some "source"
      cutoffAt := close 0
      previousEventId := none
      members := []
      populations := []
      reportVersion := 1
      exitPositions := [SampleExits.position] } }
  committedAt := close 0

def register : ExitCommand where
  operation := .register
  seed := 0
  cutoffAt := -1
  policy := some SampleExits.policy

/-- The forecast of the second session is frozen at a cutoff ten hours after it. -/
def freeze : ExitCommand where
  operation := .freeze
  seed := 0
  cutoffAt := close 1 + 10 * hour
  registrationEventId := some "register"
  sourceStandardEventId := some "standard"
  forecastFreezes := [⟨"lifecycle", SampleExits.forecast⟩]

def evaluate : ExitCommand where
  operation := .evaluate
  seed := 0
  cutoffAt := close 1 + 2 * hour
  registrationEventId := some "register"

/-- An observation of the first two sessions, without forecasts. -/
def observation : ExitObservation :=
  { OutcomeEvidence.immediate "closes" (close 1) with
    lifecycleId := "lifecycle"
    sessions := [SampleExits.row 0 10, SampleExits.row 1 9]
    forecasts := [] }

/-- The position is observed at the close of the second session. -/
def observe : ExitCommand where
  operation := .observe
  seed := 0
  cutoffAt := close 1
  registrationEventId := some "register"
  sourceStandardEventId := some "standard"
  observations := [observation]

/-- The forecast is committed an hour after the session that it is of. -/
def inputs : List ExitInput := [
  .exit "register" "register" scope register (-1),
  .other standard,
  .exit "freeze" "freeze" scope freeze (close 1 + hour),
  .exit "evaluate" "evaluate" scope evaluate (close 1 + 2 * hour),
  .exit "observe" "observe" scope observe (close 1 + 3 * hour)]

def ledger : List ExitEvent := exitLedger calendars monthOf summarize inputs

def committed : List ExitForecastFreeze :=
  frozenForecasts (committedBy (close 1 + 2 * hour)
    (registeredFreezes (ledger.take 3) (some "register")))

theorem evaluate_spec : ∃ event later, ledger = ledger.take 3 ++ event :: later ∧
    ∃ saved ∈ event.exit?, saved.command = evaluate ∧ ∃ result ∈ saved.report.positions,
      result.lifecycleId = "lifecycle" ∧ result.observation = none ∧ result.decisions = [] ∧
        committed = [⟨"lifecycle", SampleExits.forecast⟩] := by
  have hlength : 3 < ledger.length := by decide +kernel
  refine ⟨ledger[3], ledger.drop 4, ?_, ?_⟩
  · rw [List.cons_getElem_drop_succ, List.take_append_drop]
  · decide +kernel +revert

theorem observe_spec : ∃ event later, ledger = ledger.take 4 ++ event :: later ∧
    ∃ saved ∈ event.exit?, saved.command = observe ∧
      frozenForecasts (registeredFreezes (ledger.take 4) (some "register")) =
        [⟨"lifecycle", SampleExits.forecast⟩] := by
  have hlength : 4 < ledger.length := by decide +kernel
  refine ⟨ledger[4], ledger.drop 5, ?_, ?_⟩
  · rw [List.cons_getElem_drop_succ, List.take_append_drop]
  · decide +kernel +revert

/-- The evaluation is not passed the committed forecast, whose freeze has a later cutoff; and the
observation is accepted without it, as it was committed after the cutoff. -/
theorem sample_laterFreeze :
    ¬Explained (EvaluatesCommitted calendars) (exitLedger calendars monthOf summarize inputs) ∧
      ¬Explained ObservesEarlier (exitLedger calendars monthOf summarize inputs) := by
  constructor
  · intro h
    obtain ⟨event, later, heq, saved, hsaved, hcommand, result, hresult, hlifecycle, hnone, hempty,
      hcommitted⟩ := evaluate_spec
    have hoperation : saved.command.operation = .evaluate := hcommand ▸ rfl
    obtain ⟨position, quantity, observation, passed, hevaluated, hid, -, hpassed⟩ :=
      h _ event later heq saved hsaved hoperation result hresult
    rw [(result_of_evaluateExitPosition hevaluated).2.2 hnone, List.map_eq_nil_iff] at hempty
    rw [hempty] at hpassed
    refine absurd ((hpassed SampleExits.forecast).mpr ?_) List.not_mem_nil
    rw [hcommand, ← hid, hlifecycle]
    change _ ∈ committed
    rw [hcommitted]
    exact List.mem_singleton_self _
  · intro h
    obtain ⟨event, later, heq, saved, hsaved, hcommand, hfrozen⟩ := observe_spec
    have hoperation : saved.command.operation = .observe := hcommand ▸ rfl
    have hitem := h _ event later heq saved hsaved hoperation observation
      (hcommand ▸ List.mem_singleton_self _) ⟨"lifecycle", SampleExits.forecast⟩
    rw [hcommand] at hitem
    refine absurd (hitem ?_ rfl (by decide)) List.not_mem_nil
    change _ ∈ frozenForecasts (registeredFreezes (ledger.take 4) (some "register"))
    rw [hfrozen]
    exact List.mem_singleton_self _

end SampleExitRuns

end StockProfiler.Evaluation
