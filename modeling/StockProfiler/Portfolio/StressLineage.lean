import StockProfiler.Core.History
import StockProfiler.Portfolio.StressSales

/-!
# The lineage of stress obligations

An outstanding obligation is carried by every outcome of the lineage until
confirmed sales restore its target. Denied outcomes are not part of the lineage,
so they neither carry nor erase it.
-/

namespace StockProfiler.Portfolio

open PositionManagement

variable {next : StressObligation} {e : StressStep} {obligation : StressObligation}
  {ctx : DecimalContext} {history : List PortfolioStressOutcome} {input : StressInput}
  {outcome : PortfolioStressOutcome}

/-- A recorded sale still sells at least as much, for at least as much cash. -/
structure StillSold (ctx : DecimalContext) (entries : List AuthoritativeLedgerEntry)
    (after : Instant) (fill : StressRestorationFill) : Prop where
  sold : SoldSince ctx entries after fill.key
  quantity : netQuantity ctx entries fill.key ≤ fill.netQuantity
  cash : fill.netCashDelta ≤ netCash ctx entries fill.key

/-- The facts no longer confirm what satisfied an obligation. -/
def Disturbed (ctx : DecimalContext) (input : StressInput) (obligation : StressObligation) :
    Prop :=
  input.position.disposition ≠ .reconciled ∨
    (∃ correction ∈ input.corrections, correction ∉ obligation.restorationCorrections) ∨
    ∃ fill ∈ obligation.restorationFills,
      ¬StillSold ctx input.position.snapshot.authoritativeLedger obligation.triggeredAt fill

/-- An obligation that a new assessment has to meet. -/
def Outstands (ctx : DecimalContext) (input : StressInput) (obligation : StressObligation) :
    Prop :=
  obligation.status = .outstanding ∨ Disturbed ctx input obligation

theorem not_disturbed_of_stillConfirmed (h : obligation.stillConfirmed ctx input = true) :
    ¬Disturbed ctx input obligation := by
  obtain ⟨hreconciled, -, hcorrections, hfills⟩ := of_decide_eq_true h
  rintro (hne | ⟨correction, hmem, hnew⟩ | ⟨fill, hmem, hsold⟩)
  · exact hne hreconciled
  · exact hnew (of_decide_eq_true (List.all_eq_true.mp hcorrections correction hmem))
  · have hkept := List.all_eq_true.mp hfills fill hmem
    obtain ⟨current, hcurrent, hkept⟩ := (Option.any_eq_true _ _).mp hkept
    obtain ⟨hquantity, hcash⟩ := of_decide_eq_true hkept
    rw [Dict.get?_ofLast] at hcurrent
    obtain ⟨found, hfound, hpair⟩ :=
      List.mem_map.mp (List.mem_reverse.mp (Dict.mem_of_get? hcurrent))
    obtain ⟨hreference, rfl⟩ := Prod.mk.inj hpair
    obtain ⟨hsince, hnetQuantity, hnetCash⟩ := mem_effectiveSales hfound
    have hkey : found.key = fill.key :=
      congrArg (fun reference : StressLedgerReference => (reference.accountId, reference.entryId))
        hreference
    rw [hkey] at hsince hnetQuantity hnetCash
    exact hsold ⟨hsince, hnetQuantity ▸ hquantity, hnetCash ▸ hcash⟩

theorem reopen_status (h : Outstands ctx input obligation) :
    (obligation.reopen ctx input).status = .outstanding := by
  unfold StressObligation.reopen
  split
  · rfl
  · rename_i hkept
    cases hstatus : obligation.status with
    | outstanding => rfl
    | satisfied =>
      have hconfirmed : obligation.stillConfirmed ctx input = true := by
        by_contra hno
        exact hkept ⟨hstatus, by simpa using hno⟩
      rcases h with hout | hdisturbed
      · exact nomatch hstatus.symm.trans hout
      · exact absurd hdisturbed (not_disturbed_of_stillConfirmed hconfirmed)

/-- The obligation that an assessment starts from is the retained one, at most tightened. -/
structure Follows (obligation next : StressObligation) : Prop where
  obligationId : next.obligationId = obligation.obligationId
  triggeredAt : next.triggeredAt = obligation.triggeredAt
  target : next.targetStressRatio ≤ obligation.targetStressRatio

theorem Follows.trans {a b c : StressObligation} (hab : Follows a b) (hbc : Follows b c) :
    Follows a c :=
  ⟨hbc.obligationId.trans hab.obligationId, hbc.triggeredAt.trans hab.triggeredAt,
    hbc.target.trans hab.target⟩

theorem follows_reopen (obligation : StressObligation) :
    Follows obligation (obligation.reopen ctx input) := by
  unfold StressObligation.reopen
  split <;> exact ⟨rfl, rfl, le_rfl⟩

theorem follows_tighten (obligation : StressObligation) (budget : Option PersonalRiskBudget)
    (reasons : List String) : Follows obligation (obligation.tighten budget reasons) := by
  unfold StressObligation.tighten
  split
  · exact ⟨rfl, rfl, le_rfl⟩
  · split
    · exact ⟨rfl, rfl, min_le_left _ _⟩
    · exact ⟨rfl, rfl, le_rfl⟩

theorem follows_restore (obligation : StressObligation) (loss equity : ℚ) :
    Follows obligation (obligation.restore ctx input loss equity) := by
  unfold StressObligation.restore
  dsimp only
  split <;> exact ⟨rfl, rfl, le_rfl⟩

@[simp] theorem tighten_status (obligation : StressObligation) (budget : Option PersonalRiskBudget)
    (reasons : List String) : (obligation.tighten budget reasons).status = obligation.status := by
  unfold StressObligation.tighten
  split
  · rfl
  · split <;> rfl

/-- The obligation of the last visible outcome of the lineage. -/
def priorObligation (history : List PortfolioStressOutcome) (input : StressInput) :
    Option StressObligation :=
  (priorStress history input.position.snapshot.cutoffAt).bind (·.obligation)

/-- What an assessment starts from comes from the retained obligation. -/
theorem follows_of_retained (h : retainedObligation ctx input history = some next) :
    ∃ obligation, priorObligation history input = some obligation ∧ Follows obligation next ∧
      (Outstands ctx input obligation → next.status = .outstanding) := by
  unfold retainedObligation at h
  dsimp only at h
  split at h
  · exact nomatch h
  · obtain ⟨obligation, hprior, rfl⟩ := Option.map_eq_some_iff.mp h
    refine ⟨obligation, hprior, (follows_reopen obligation).trans (follows_tighten _ _ _), ?_⟩
    intro hout
    rw [tighten_status]
    exact reopen_status hout

/-- Unless a retained account is missing, the retained obligation is started from. -/
theorem retained_of_prior (ctx : DecimalContext)
    (hcovered : input.retainedScopeNotCovered (stressLineage history) = false)
    (hprior : priorObligation history input = some obligation) :
    ∃ next, retainedObligation ctx input history = some next ∧ Follows obligation next ∧
      (Outstands ctx input obligation → next.status = .outstanding) := by
  have hsome : ∃ next, retainedObligation ctx input history = some next := by
    unfold retainedObligation
    dsimp only
    rw [hcovered, if_neg (by decide)]
    rw [priorObligation] at hprior
    rw [hprior]
    exact ⟨_, rfl⟩
  obtain ⟨next, hnext⟩ := hsome
  obtain ⟨found, hfound, hfollows⟩ := follows_of_retained hnext
  obtain rfl := Option.some.inj (hprior.symm.trans hfound)
  exact ⟨next, hnext, hfollows⟩

/-- What the absence of lineage denials says about an assessment. -/
theorem lineage_reasons (h : noLineageDenial (stressReasons input history) = true) :
    input.retainedScopeNotCovered (stressLineage history) = false ∧
      ∀ item ∈ stressLineage history, item.cutoffAt < input.position.snapshot.cutoffAt := by
  have hdenied : ∀ reason ∈ lineageDenials, reason ∉ stressReasons input history :=
    fun reason hreason hmem => of_decide_eq_true (List.all_eq_true.mp h reason hmem) hreason
  constructor
  · by_contra hscope
    rw [Bool.not_eq_false] at hscope
    refine hdenied "STRESS_RETAINED_SCOPE_NOT_COVERED" (by decide) ?_
    simp [stressReasons, hscope]
  · intro item hitem
    by_contra hlate
    refine hdenied "STRESS_SNAPSHOT_NOT_FORWARD" (by decide) ?_
    have hany : (stressLineage history).any (input.position.snapshot.cutoffAt ≤ ·.cutoffAt) =
        true :=
      List.any_eq_true.mpr ⟨item, hitem, decide_eq_true (not_lt.mp hlate)⟩
    simp only [stressReasons, hany, if_true, List.mem_append, List.mem_singleton, true_or, or_true]

/-- A forward assessment starts from the last outcome of the lineage. -/
theorem priorStress_eq_getLast? {cutoffAt : Instant}
    (h : ∀ item ∈ stressLineage history, item.cutoffAt < cutoffAt) :
    priorStress history cutoffAt = (stressLineage history).getLast? := by
  rw [priorStress, List.filter_eq_self.mpr fun item hitem => decide_eq_true (h item hitem)]

/-- How an assessment ends. -/
inductive StressCase (ctx : DecimalContext) (history : List PortfolioStressOutcome)
    (input : StressInput) : PortfolioStressOutcome → Prop where
  | unavailable : StressCase ctx history input
      (input.unavailable (stressReasons input history) (retainedObligation ctx input history))
  | insolvent (contributions : List StressContribution) (loss equity : ℚ)
      (hreasons : stressReasons input history = []) :
      StressCase ctx history input
        { input.unavailable ["STRESS_NET_EQUITY_NON_POSITIVE"]
            (retainedObligation ctx input history) with
          contributions := contributions
          grossStressLoss := some loss
          netLiquidationEquity := some equity }
  | assessed (usage : PortfolioAuthorizationUsage) (policy : StressCalculationPolicy)
      (budget : PersonalRiskBudget) (contributions : List StressContribution) (loss equity : ℚ)
      (hreasons : stressReasons input history = []) (hbudget : input.allowedBudget = some budget)
      (hequity : 0 < equity) :
      StressCase ctx history input
        (input.assessed ctx usage policy budget.stress contributions loss equity
          (retainedObligation ctx input history))

theorem stressCase_of_assess (h : assessStress ctx history input = some outcome) :
    StressCase ctx history input outcome := by
  unfold assessStress at h
  dsimp only at h
  split at h
  · cases h
    exact .unavailable
  · rename_i hreasons
    rw [not_not] at hreasons
    obtain ⟨usage, -, h⟩ := Option.bind_eq_some_iff.mp h
    obtain ⟨policy, -, h⟩ := Option.bind_eq_some_iff.mp h
    obtain ⟨budget, hbudget, h⟩ := Option.bind_eq_some_iff.mp h
    obtain ⟨total, -, h⟩ := Option.bind_eq_some_iff.mp h
    obtain ⟨contributions, -, h⟩ := Option.bind_eq_some_iff.mp h
    split at h
    · cases h
      exact .insolvent contributions _ _ hreasons
    · rename_i hequity
      cases h
      exact .assessed usage policy budget contributions _ _ hreasons hbudget (not_le.mp hequity)

/-- An outcome of the lineage has no lineage denial among the reasons of its assessment. -/
theorem StressCase.forward (h : StressCase ctx history input outcome)
    (hlineage : outcome.inLineage = true) :
    noLineageDenial (stressReasons input history) = true := by
  cases h with
  | unavailable => exact hlineage
  | insolvent _ _ _ hreasons => rw [hreasons]; rfl
  | assessed _ _ _ _ _ _ hreasons _ _ => rw [hreasons]; rfl

/-- One step of a run of stress assessments. -/
abbrev StressStep := HistoryStep StressInput PortfolioStressOutcome

/-- The full test of an obligation: the facts are reconciled, the loss is within the target, and
a fill made after the trigger still sells after all its corrections. -/
structure FullTest (ctx : DecimalContext) (e : StressStep) (obligation : StressObligation) :
    Prop where
  reconciled : e.input.position.disposition = .reconciled
  restored : ∃ loss equity, e.outcome.grossStressLoss = some loss ∧
    e.outcome.netLiquidationEquity = some equity ∧
      loss ≤ ctx.mul obligation.targetStressRatio equity
  sold : ∃ key,
    SoldSince ctx e.input.position.snapshot.authoritativeLedger obligation.triggeredAt key

/-- A step carries an obligation: outstanding, or satisfied by the full test. -/
def Carries (ctx : DecimalContext) (e : StressStep) (obligation : StressObligation) : Prop :=
  ∃ next, e.outcome.obligation = some next ∧ Follows obligation next ∧
    (next.status = .outstanding ∨ FullTest ctx e next)

/-- A hard breach without an outstanding obligation triggers a new one. -/
structure Triggers (ctx : DecimalContext) (e : StressStep) (next : StressObligation) : Prop where
  breach : e.outcome.state = .hardBreach
  loss : ∃ budget loss equity, e.outcome.budget = some budget ∧
    e.outcome.grossStressLoss = some loss ∧ e.outcome.netLiquidationEquity = some equity ∧
      ctx.mul budget.hardRatio equity < loss
  outstanding : next.status = .outstanding
  triggeredAt : next.triggeredAt = e.outcome.cutoffAt
  none_outstanding : ∀ obligation, priorObligation e.before e.input = some obligation →
    ¬Outstands ctx e.input obligation

/-- An assessed obligation that was outstanding is met by the full test only. -/
theorem restore_outstanding (hout : obligation.status = .outstanding) {loss equity : ℚ}
    (hloss : e.outcome.grossStressLoss = some loss)
    (hequity : e.outcome.netLiquidationEquity = some equity) :
    (obligation.restore ctx e.input loss equity).status = .outstanding ∨
      FullTest ctx e (obligation.restore ctx e.input loss equity) := by
  unfold StressObligation.restore
  dsimp only
  split
  · rename_i hmet
    obtain ⟨htarget, hsales, hreconciled⟩ := hmet
    obtain ⟨fill, hfill⟩ := List.exists_mem_of_ne_nil _ hsales
    exact .inr ⟨hreconciled, ⟨loss, equity, hloss, hequity, htarget⟩,
      ⟨fill.key, (mem_effectiveSales hfill).1⟩⟩
  · exact .inl hout

/-- An outcome of the lineage carries what the retained one leaves outstanding. -/
theorem StressCase.carries (h : StressCase ctx history input outcome)
    (hlineage : outcome.inLineage = true) (hprior : priorObligation history input = some obligation)
    (hout : Outstands ctx input obligation) : Carries ctx ⟨history, input, outcome⟩ obligation := by
  obtain ⟨hcovered, -⟩ := lineage_reasons (h.forward hlineage)
  obtain ⟨next, hnext, hfollows, hstatus⟩ := retained_of_prior ctx hcovered hprior
  cases h with
  | unavailable => exact ⟨next, hnext, hfollows, .inl (hstatus hout)⟩
  | insolvent _ _ _ _ => exact ⟨next, hnext, hfollows, .inl (hstatus hout)⟩
  | assessed usage policy budget contributions loss equity _ _ _ =>
    have hkept : breachedObligation input budget.stress (stressState ctx budget.stress loss equity)
        (retainedObligation ctx input history) = some next := by
      rw [breachedObligation, hnext, if_neg]
      rintro ⟨-, hall⟩
      rw [Option.all_some, hstatus hout] at hall
      exact nomatch hall
    refine ⟨next.restore ctx input loss equity, ?_, hfollows.trans (follows_restore _ _ _), ?_⟩
    · simp only [StressInput.assessed, hkept, Option.map_some]
    · exact restore_outstanding (e := ⟨history, input, _⟩) (hstatus hout) rfl rfl

/-- A triggered obligation is not met by the loss that triggered it. -/
theorem restore_triggered {budget : TwoThresholdBudget} {loss equity : ℚ} (hequity : 0 < equity)
    (hloss : ctx.mul budget.hardRatio equity < loss) :
    (input.triggered budget).restore ctx input loss equity = input.triggered budget := by
  have htarget : ctx.mul budget.targetRatio equity ≤ ctx.mul budget.hardRatio equity :=
    ctx.round_mono (mul_le_mul_of_nonneg_right budget.target_lt_hard.le hequity.le)
  rw [StressObligation.restore, if_neg]
  rintro ⟨hmet, -⟩
  exact absurd (hmet.trans htarget) (not_le.mpr hloss)

/-- Every obligation of an outcome follows the retained one, or is triggered. -/
theorem StressCase.follows_or_triggers (h : StressCase ctx history input outcome)
    (hnext : outcome.obligation = some next) :
    (∃ obligation, priorObligation history input = some obligation ∧ Follows obligation next) ∨
      Triggers ctx ⟨history, input, outcome⟩ next := by
  cases h with
  | unavailable =>
    obtain ⟨obligation, hprior, hfollows, -⟩ := follows_of_retained hnext
    exact .inl ⟨obligation, hprior, hfollows⟩
  | insolvent _ _ _ _ =>
    obtain ⟨obligation, hprior, hfollows, -⟩ := follows_of_retained hnext
    exact .inl ⟨obligation, hprior, hfollows⟩
  | assessed usage policy budget contributions loss equity hreasons hbudget hequity =>
    obtain ⟨started, hstarted, rfl⟩ := Option.map_eq_some_iff.mp hnext
    unfold breachedObligation at hstarted
    split at hstarted
    · rename_i hbreach
      obtain ⟨hstate, hall⟩ := hbreach
      cases hstarted
      have hloss : ctx.mul budget.stress.hardRatio equity < loss := by
        by_contra hle
        rw [stressState, if_neg hle] at hstate
        split at hstate <;> exact nomatch hstate
      rw [restore_triggered hequity hloss]
      right
      constructor
      case breach => exact hstate
      case loss =>
        refine ⟨budget.stress, loss, equity, ?_, rfl, rfl, hloss⟩
        change input.allowedBudget.map (·.stress) = some budget.stress
        rw [hbudget]
        rfl
      case outstanding => rfl
      case triggeredAt => rfl
      case none_outstanding =>
        intro obligation hprior hout
        have hlineage : noLineageDenial (stressReasons input history) = true := by
          rw [hreasons]
          rfl
        obtain ⟨hcovered, -⟩ := lineage_reasons hlineage
        obtain ⟨kept, hkept, -, hstatus⟩ := retained_of_prior ctx hcovered hprior
        rw [hkept, Option.all_some, hstatus hout] at hall
        exact nomatch hall
    · left
      obtain ⟨obligation, hprior, hfollows, -⟩ := follows_of_retained hstarted
      exact ⟨obligation, hprior, hfollows.trans (follows_restore _ _ _)⟩

/-- The run of a list of stress assessments. -/
def stressRun (ctx : DecimalContext) (inputs : List StressInput) : List StressStep :=
  traceSome (assessStress ctx) inputs

/-- The last outcome of the lineage. -/
def lastStress (run : List StressStep) : Option PortfolioStressOutcome :=
  (stressLineage (outcomes run)).getLast?

@[simp] theorem lastStress_append_singleton (run : List StressStep) (e : StressStep) :
    lastStress (run ++ [e]) = if e.outcome.inLineage then some e.outcome else lastStress run := by
  simp only [lastStress, stressLineage, outcomes_append, outcomes_singleton, List.filter_append]
  by_cases h : e.outcome.inLineage = true
  · rw [if_pos h, List.filter_cons_of_pos h, List.filter_nil, List.getLast?_concat]
  · rw [if_neg h, List.filter_cons_of_neg h, List.filter_nil, List.append_nil]

/-- Denied outcomes leave the last outcome of the lineage where it is. -/
theorem lastStress_append_denied {run denied : List StressStep}
    (h : ∀ x ∈ denied, x.outcome.inLineage = false) :
    lastStress (run ++ denied) = lastStress run := by
  induction denied using List.reverseRecOn with
  | nil => rw [List.append_nil]
  | append_singleton denied x ih =>
    have hx := h x (List.mem_append_right _ (List.mem_singleton_self x))
    rw [← List.append_assoc, lastStress_append_singleton, if_neg (by simp [hx])]
    exact ih fun y hy => h y (List.mem_append_left _ hy)

section Run

variable {run : List StressStep}
  (hrun : HistoryRun
    (fun history input outcome => assessStress ctx history input = some outcome) run)
include hrun

/-- A step of the lineage carries what the last outcome before it leaves outstanding. -/
theorem carries_of_lastStress {earlier later : List StressStep}
    (hsplit : run = earlier ++ e :: later) (hlineage : e.outcome.inLineage = true)
    {last : PortfolioStressOutcome} (hlast : lastStress earlier = some last)
    (hobligation : last.obligation = some obligation) (hout : Outstands ctx e.input obligation) :
    Carries ctx e obligation := by
  have hbefore : e.before = outcomes earlier := hrun.before_eq hsplit
  have hmem : e ∈ run := hsplit ▸ List.mem_append_right _ (List.mem_cons_self ..)
  have hcase : StressCase ctx e.before e.input e.outcome :=
    stressCase_of_assess (hrun.step_of_mem hmem)
  obtain ⟨-, hforward⟩ := lineage_reasons (hcase.forward hlineage)
  have hprior : priorObligation e.before e.input = some obligation := by
    rw [priorObligation, priorStress_eq_getLast? hforward, hbefore]
    rw [lastStress] at hlast
    rw [hlast]
    exact hobligation
  exact hcase.carries hlineage hprior hout

/-- While no outcome satisfies it, the last outcome of the lineage leaves an obligation
outstanding. -/
theorem lastStress_outstanding {earlier between later : List StressStep}
    (hsplit : run = earlier ++ e :: between ++ later) (hlineage : e.outcome.inLineage = true)
    (hobligation : e.outcome.obligation = some obligation) (hout : obligation.status = .outstanding)
    (hunsatisfied : ∀ x ∈ between, x.outcome.inLineage = true → ∀ o,
      x.outcome.obligation = some o → o.status = .outstanding) :
    ∃ last next, lastStress (earlier ++ e :: between) = some last ∧
      last.obligation = some next ∧ Follows obligation next ∧ next.status = .outstanding := by
  induction between using List.reverseRecOn generalizing later with
  | nil =>
    refine ⟨e.outcome, obligation, ?_, hobligation, ⟨rfl, rfl, le_rfl⟩, hout⟩
    rw [lastStress_append_singleton, if_pos hlineage]
  | append_singleton between x ih =>
    have hsplit' : run = earlier ++ e :: between ++ x :: later := by simp [hsplit]
    obtain ⟨last, next, hlast, hnext, hfollows, hstatus⟩ := ih hsplit'
      fun y hy => hunsatisfied y (List.mem_append_left _ hy)
    rw [← List.cons_append, ← List.append_assoc, lastStress_append_singleton]
    cases hx : x.outcome.inLineage with
    | false => exact ⟨last, next, hlast, hnext, hfollows, hstatus⟩
    | true =>
      obtain ⟨carried, hcarried, hkept, -⟩ :=
        carries_of_lastStress hrun hsplit' hx hlast hnext (.inl hstatus)
      have hstill := hunsatisfied x (List.mem_append_right _ (List.mem_singleton_self x)) hx
        carried hcarried
      exact ⟨x.outcome, carried, rfl, hcarried, hfollows.trans hkept, hstill⟩

end Run

/-- What a run guarantees of its obligations. -/
structure ObligationsPersist (ctx : DecimalContext) (run : List StressStep) : Prop where
  /-- The next outcome of the lineage carries an outstanding or disturbed obligation, whatever
  was denied in between. -/
  next : ∀ earlier e denied e' later obligation, run = earlier ++ e :: denied ++ e' :: later →
    e.outcome.inLineage = true → (∀ x ∈ denied, x.outcome.inLineage = false) →
    e'.outcome.inLineage = true → e.outcome.obligation = some obligation →
    Outstands ctx e'.input obligation → Carries ctx e' obligation
  /-- Every outcome of the lineage carries an outstanding obligation until one satisfies it. -/
  persists : ∀ earlier e between e' later obligation, run = earlier ++ e :: between ++ e' :: later →
    e.outcome.inLineage = true → e'.outcome.inLineage = true →
    e.outcome.obligation = some obligation → obligation.status = .outstanding →
    (∀ x ∈ between, x.outcome.inLineage = true → ∀ o, x.outcome.obligation = some o →
      o.status = .outstanding) → Carries ctx e' obligation
  /-- Every other obligation is new, triggered by a hard breach. -/
  fresh : ∀ e ∈ run, ∀ next, e.outcome.obligation = some next →
    (∃ obligation, priorObligation e.before e.input = some obligation ∧ Follows obligation next) ∨
      Triggers ctx e next

/-- No run of stress assessments loses an outstanding obligation. -/
theorem stressRun_obligationsPersist (ctx : DecimalContext) (inputs : List StressInput) :
    ObligationsPersist ctx (stressRun ctx inputs) := by
  have hrun := historyRun_traceSome (assessStress ctx) inputs
  constructor
  case next =>
    intro earlier e denied e' later obligation hsplit hlineage hdenied hlineage' hobligation hout
    have hlast : lastStress (earlier ++ e :: denied) = some e.outcome := by
      rw [List.append_cons, lastStress_append_denied hdenied, lastStress_append_singleton,
        if_pos hlineage]
    exact carries_of_lastStress hrun hsplit hlineage' hlast hobligation hout
  case persists =>
    intro earlier e between e' later obligation hsplit hlineage hlineage' hobligation hout
      hunsatisfied
    obtain ⟨last, next, hlast, hnext, hfollows, hstatus⟩ :=
      lastStress_outstanding hrun hsplit hlineage hobligation hout hunsatisfied
    obtain ⟨carried, hcarried, hkept, htest⟩ :=
      carries_of_lastStress hrun hsplit hlineage' hlast hnext (.inl hstatus)
    exact ⟨carried, hcarried, hfollows.trans hkept, htest⟩
  case fresh =>
    intro e he next hnext
    exact (stressCase_of_assess (hrun.step_of_mem he)).follows_or_triggers hnext

end StockProfiler.Portfolio
