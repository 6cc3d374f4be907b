import StockProfiler.Portfolio.AuthorizationRuns

/-!
# Relaxed risk budgets

A budget that relaxes no boundary of its predecessor stays within it. Staying within is an
order, so a lineage cannot relax its first budget without a step that relaxes the one before.
-/

namespace StockProfiler.Portfolio

section Grids

variable {grid middle previous : DownsideGrid}

/-- No boundary of a grid is wider than the corresponding one or the last one of another grid. -/
structure GridWithin (grid previous : DownsideGrid) : Prop where
  last_le : grid.last ≤ previous.last
  get_le : ∀ (i : ℕ) (hi : i < grid.values.length) (hp : i < previous.values.length),
    grid.values[i] ≤ previous.values[i]

theorem DownsideGrid.get_le_last (g : DownsideGrid) {i : ℕ} (hi : i < g.values.length) :
    g.values[i] ≤ g.last := by
  rw [DownsideGrid.last, List.getLast_eq_getElem]
  rcases Nat.lt_or_ge i (g.values.length - 1) with hlt | hge
  · exact (List.pairwise_iff_getElem.mp g.values_sorted _ _ hi (by omega) hlt).le
  · have heq : i = g.values.length - 1 := by omega
    subst heq
    exact le_rfl

theorem GridWithin.refl (grid : DownsideGrid) : GridWithin grid grid :=
  ⟨le_rfl, fun _ _ _ => le_rfl⟩

/-- Grids of any lengths: where the one in the middle is too short to compare, its last boundary
lies between. -/
theorem GridWithin.trans (h : GridWithin grid middle) (h' : GridWithin middle previous) :
    GridWithin grid previous where
  last_le := h.last_le.trans h'.last_le
  get_le := by
    intro i hi hp
    rcases Nat.lt_or_ge i middle.values.length with hm | hm
    · exact (h.get_le i hi hm).trans (h'.get_le i hm hp)
    · have hpos : 0 < middle.values.length := List.length_pos_of_ne_nil middle.values_ne_nil
      have hend : middle.values.length - 1 < middle.values.length := by omega
      calc grid.values[i] ≤ grid.last := grid.get_le_last hi
        _ ≤ middle.last := h.last_le
        _ = middle.values[middle.values.length - 1] := List.getLast_eq_getElem _
        _ ≤ previous.values[middle.values.length - 1] := h'.get_le _ hend (by omega)
        _ ≤ previous.values[i] :=
          (List.pairwise_iff_getElem.mp previous.values_sorted _ _ (by omega) hp (by omega)).le

theorem relaxesDownsideGrid_eq_false_iff {budget other : PersonalRiskBudget} :
    budget.relaxesDownsideGrid other = false ↔
      GridWithin budget.downsideGrid other.downsideGrid := by
  unfold PersonalRiskBudget.relaxesDownsideGrid
  rw [decide_eq_false_iff_not, not_or, not_lt, Bool.not_eq_true, List.any_eq_false]
  constructor
  · rintro ⟨hlast, hzip⟩
    refine ⟨hlast, fun i hi hp => ?_⟩
    have hmem : (budget.downsideGrid.values[i], other.downsideGrid.values[i]) ∈
        budget.downsideGrid.values.zip other.downsideGrid.values := by
      refine List.mem_iff_getElem.mpr ⟨i, ?_, List.getElem_zip⟩
      rw [List.length_zip]
      omega
    have hle := hzip _ hmem
    simpa using hle
  · intro h
    refine ⟨h.last_le, fun pair hpair => ?_⟩
    obtain ⟨i, hi, rfl⟩ := List.mem_iff_getElem.mp hpair
    rw [List.length_zip] at hi
    have hle := h.get_le i (by omega) (by omega)
    simpa using hle

end Grids

section Budgets

variable {budgets : List PersonalRiskBudget} {budget middle previous : PersonalRiskBudget}

/-- A stress policy stays at least as conservative as an earlier one. -/
def StressWithin (current previous : Option StressCalculationPolicy) : Prop :=
  ∀ prior ∈ previous, ∃ policy ∈ current,
    prior.disposalFrictionRatio ≤ policy.disposalFrictionRatio ∧
      prior.shockRatio ≤ policy.shockRatio

theorem StressWithin.refl (current : Option StressCalculationPolicy) :
    StressWithin current current := fun policy hpolicy => ⟨policy, hpolicy, le_rfl, le_rfl⟩

theorem StressWithin.trans {a b c : Option StressCalculationPolicy} (h : StressWithin a b)
    (h' : StressWithin b c) : StressWithin a c := by
  intro prior hprior
  obtain ⟨policy, hpolicy, hfriction, hshock⟩ := h' prior hprior
  obtain ⟨last, hlast, hfriction', hshock'⟩ := h policy hpolicy
  exact ⟨last, hlast, hfriction.trans hfriction', hshock.trans hshock'⟩

theorem relaxesStress_eq_false_iff : budget.relaxesStress previous = false ↔
    StressWithin budget.stressCalculation previous.stressCalculation := by
  unfold PersonalRiskBudget.relaxesStress StressWithin
  cases previous.stressCalculation with
  | none => simp
  | some prior => cases budget.stressCalculation <;> simp

/-- A budget permits no more statistical risk than an earlier one. -/
structure StaysWithin (budget previous : PersonalRiskBudget) : Prop where
  concentrationTarget : budget.concentration.targetRatio ≤ previous.concentration.targetRatio
  concentrationHard : budget.concentration.hardRatio ≤ previous.concentration.hardRatio
  stressTarget : budget.stress.targetRatio ≤ previous.stress.targetRatio
  stressHard : budget.stress.hardRatio ≤ previous.stress.hardRatio
  cashTarget : previous.cash.targetRatio ≤ budget.cash.targetRatio
  cashHard : previous.cash.hardRatio ≤ budget.cash.hardRatio
  caution : budget.drawdown.cautionRatio ≤ previous.drawdown.cautionRatio
  defensive : budget.drawdown.defensiveRatio ≤ previous.drawdown.defensiveRatio
  preservation : budget.drawdown.preservationRatio ≤ previous.drawdown.preservationRatio
  grid : GridWithin budget.downsideGrid previous.downsideGrid
  stress : StressWithin budget.stressCalculation previous.stressCalculation
  directions : ∀ direction ∈ previous.retainedDirections, direction ∈ budget.retainedDirections

theorem relaxes_eq_false_iff : budget.relaxes previous = false ↔ StaysWithin budget previous := by
  unfold PersonalRiskBudget.relaxes
  simp only [decide_eq_false_iff_not, not_or, not_lt, not_not, Bool.not_eq_true,
    relaxesDownsideGrid_eq_false_iff, relaxesStress_eq_false_iff]
  constructor
  · rintro ⟨h1, h2, h3, h4, h5, h6, h7, h8, h9, h10, h11, h12⟩
    exact ⟨h1, h2, h3, h4, h5, h6, h7, h8, h9, h10, h11, h12⟩
  · rintro ⟨h1, h2, h3, h4, h5, h6, h7, h8, h9, h10, h11, h12⟩
    exact ⟨h1, h2, h3, h4, h5, h6, h7, h8, h9, h10, h11, h12⟩

theorem StaysWithin.refl (budget : PersonalRiskBudget) : StaysWithin budget budget :=
  ⟨le_rfl, le_rfl, le_rfl, le_rfl, le_rfl, le_rfl, le_rfl, le_rfl, le_rfl, .refl _, .refl _,
    fun _ h => h⟩

theorem StaysWithin.trans (h : StaysWithin budget middle) (h' : StaysWithin middle previous) :
    StaysWithin budget previous where
  concentrationTarget := h.concentrationTarget.trans h'.concentrationTarget
  concentrationHard := h.concentrationHard.trans h'.concentrationHard
  stressTarget := h.stressTarget.trans h'.stressTarget
  stressHard := h.stressHard.trans h'.stressHard
  cashTarget := h'.cashTarget.trans h.cashTarget
  cashHard := h'.cashHard.trans h.cashHard
  caution := h.caution.trans h'.caution
  defensive := h.defensive.trans h'.defensive
  preservation := h.preservation.trans h'.preservation
  grid := h.grid.trans h'.grid
  stress := h.stress.trans h'.stress
  directions := fun direction hdirection =>
    h.directions direction (h'.directions direction hdirection)

/-- Budgets of which none relaxes the one before it. -/
def Tightening (budgets : List PersonalRiskBudget) : Prop :=
  budgets.IsChain fun previous budget => budget.relaxes previous = false

/-- No step relaxes, so none of the later budgets relaxes an earlier one. -/
theorem Tightening.pairwise (h : Tightening budgets) :
    budgets.Pairwise fun previous budget => budget.relaxes previous = false := by
  have : IsTrans PersonalRiskBudget fun previous budget => budget.relaxes previous = false := by
    refine ⟨fun a b c hab hbc => ?_⟩
    exact relaxes_eq_false_iff.mpr
      ((relaxes_eq_false_iff.mp hbc).trans (relaxes_eq_false_iff.mp hab))
  exact List.IsChain.pairwise h

/-- The last budget of a chain whose steps relax nothing does not relax the first. -/
theorem Tightening.relaxes_eq_false (h : Tightening budgets) {first last : PersonalRiskBudget}
    (hfirst : budgets.head? = some first) (hlast : budgets.getLast? = some last) :
    last.relaxes first = false := by
  cases budgets with
  | nil => exact nomatch hfirst
  | cons head rest =>
    cases hfirst
    rcases List.eq_nil_or_concat rest with rfl | ⟨front, tail, rfl⟩
    · cases hlast
      exact relaxes_eq_false_iff.mpr (StaysWithin.refl _)
    · rw [List.concat_eq_append, ← List.cons_append, List.getLast?_concat] at hlast
      obtain rfl := Option.some.inj hlast
      refine (List.pairwise_cons.mp h.pairwise).1 tail ?_
      rw [List.concat_eq_append]
      exact List.mem_append_right _ (List.mem_singleton_self tail)

end Budgets

/-- The risk budget that an authorization froze. -/
def PortfolioAuthorization.riskBudget (a : PortfolioAuthorization) : PersonalRiskBudget :=
  a.proposal.riskBudget

theorem rel_of_adjacent {as : List PortfolioAuthorization} {x y : PortfolioAuthorization}
    {R : PortfolioAuthorization → PortfolioAuthorization → Prop} (h : as.IsChain R)
    (hpair : [x, y] <:+: as) : R x y := by
  obtain ⟨before, after, rfl⟩ := hpair
  exact List.isChain_pair.mp h.left_of_append.right_of_append

/-- Between a member of a lineage and a later one that relaxes it there is a step that relaxes the
member before it. -/
theorem exists_relaxing_step (between : List PortfolioAuthorization) {a b : PortfolioAuthorization}
    (h : b.riskBudget.relaxes a.riskBudget = true) :
    ∃ x y, [x, y] <:+: a :: (between ++ [b]) ∧ y.riskBudget.relaxes x.riskBudget = true := by
  by_contra hnone
  have hsteps : Tightening ((a :: (between ++ [b])).map (·.riskBudget)) := by
    refine (List.isChain_map _).mpr ((List.isChain_isInfix _).imp fun x y hstep => ?_)
    rw [← Bool.not_eq_true]
    exact fun hrelaxes => hnone ⟨x, y, hstep, hrelaxes⟩
  have hlast : ((a :: (between ++ [b])).map (·.riskBudget)).getLast? = some b.riskBudget := by
    rw [List.map_cons, List.map_append, List.map_singleton, ← List.cons_append,
      List.getLast?_concat]
  exact absurd h (Bool.eq_false_iff.mp (hsteps.relaxes_eq_false rfl hlast))

/-- A run of portfolio commands. -/
abbrev AuthorizationRun := List (HistoryStep AuthorizationInput PortfolioAuthorizationOutcome)

/-- A run accepted an authorization with relaxation evidence of its own against another one. -/
def AcceptedWithEvidence (run : AuthorizationRun) (previous next : PortfolioAuthorization) : Prop :=
  ∃ before e after command, run = before ++ e :: after ∧ e.input.command = .confirm command ∧
    e.outcome.authorization = some next ∧ next.confirmation = command.confirmation ∧
    checkRelaxation command previous
      (portfolioAuthorizationLineage (outcomes before) command.proposal.portfolioId)
      e.input.knowledgeCutoff e.input.stressHistory = .ok ()

variable {run : AuthorizationRun} {previous next : PortfolioAuthorization}

theorem AcceptedWithEvidence.append (h : AcceptedWithEvidence run previous next)
    (rest : AuthorizationRun) : AcceptedWithEvidence (run ++ rest) previous next := by
  obtain ⟨before, e, after, command, rfl, h⟩ := h
  exact ⟨before, e, after ++ rest, command, by rw [List.append_assoc, List.cons_append], h⟩

theorem AcceptedWithEvidence.exists_evidence (h : AcceptedWithEvidence run previous next) :
    ∃ evidence ∈ next.confirmation.relaxationEvidence,
      evidence.predecessorAuthorizationId = previous.authorizationId ∧
      evidence.predecessorRiskBudgetVersionId = previous.riskBudget.versionId := by
  obtain ⟨before, e, after, command, -, -, -, hconfirmation, hcheck⟩ := h
  simp only [checkRelaxation, bind_eq_ok, known_eq_ok, require_eq_ok] at hcheck
  obtain ⟨evidence, hevidence, -, hpredecessor, -⟩ := hcheck
  rw [hconfirmation]
  exact ⟨evidence, hevidence, hpredecessor.1, hpredecessor.2.1⟩

/-- A checked command that relaxes the current budget has passed the check of its evidence. -/
theorem relaxation_of_checkConfirmation {command : PortfolioConfirmationCommand} {cutoff : Instant}
    {lineage ownerLineage : List PortfolioAuthorizationOutcome}
    {stressHistory : List PortfolioStressOutcome} {current : Option PortfolioAuthorization}
    (h : checkConfirmation command cutoff lineage ownerLineage stressHistory = .ok ())
    (hcurrent : currentAuthorization lineage command.proposal.portfolioId = .ok current) :
    ∀ a ∈ current, command.proposal.riskBudget.relaxes a.proposal.riskBudget = true →
      checkRelaxation command a lineage cutoff stressHistory = .ok () := by
  simp only [checkConfirmation, checkReusedIdentity, checkReusedObligations, bind_eq_ok,
    require_eq_ok] at h
  obtain ⟨-, -, other, hother, -, -, -, -, -, -, -, -, -, -, -, -, hforward⟩ := h
  rw [hcurrent] at hother
  cases hother
  rintro a rfl hrelaxes
  simp only [checkForward, bind_eq_ok, require_eq_ok] at hforward
  obtain ⟨-, -, hforward⟩ := hforward
  rwa [if_pos hrelaxes] at hforward

/-- Each step of each lineage of a run that relaxes the budget before was accepted with evidence. -/
def EvidencedLineages (run : AuthorizationRun) : Prop :=
  ∀ portfolioId, (portfolioAuthorizations (outcomes run) portfolioId).IsChain fun previous next =>
    next.riskBudget.relaxes previous.riskBudget = true → AcceptedWithEvidence run previous next

theorem EvidencedLineages.isChain_append (h : EvidencedLineages run) (rest : AuthorizationRun)
    (portfolioId : String) : (portfolioAuthorizations (outcomes run) portfolioId).IsChain
      fun previous next => next.riskBudget.relaxes previous.riskBudget = true →
        AcceptedWithEvidence (run ++ rest) previous next :=
  (h portfolioId).imp fun _ _ hstep hrelaxes => (hstep hrelaxes).append rest

theorem portfolioAuthorizations_singleton (o : PortfolioAuthorizationOutcome)
    (portfolioId : String) : portfolioAuthorizations [o] portfolioId =
      (o.authorization.filter (·.proposal.portfolioId = portfolioId)).toList := by
  unfold portfolioAuthorizations authorizations
  cases h : o.authorization with
  | none => rw [List.filterMap_cons, h]; rfl
  | some a =>
    rw [List.filterMap_cons, h, List.filterMap_nil, List.filter_singleton]
    by_cases hid : a.proposal.portfolioId = portfolioId <;> simp [hid, Option.filter]

/-- An authorization that a command adds was accepted with evidence, if it relaxes the last one. -/
theorem acceptedWithEvidence_of_authorization {input : AuthorizationInput}
    (hlineages : AuthorizedLineages (outcomes run)) {last : PortfolioAuthorization}
    (hnext : (authorizePortfolio (outcomes run) input).authorization = some next)
    (hlast : (portfolioAuthorizations (outcomes run) next.proposal.portfolioId).getLast? =
      some last) (hrelaxes : next.riskBudget.relaxes last.riskBudget = true) :
    AcceptedWithEvidence
      (run ++ [⟨outcomes run, input, authorizePortfolio (outcomes run) input⟩]) last next := by
  obtain ⟨confirm, hcommand, rfl, hcheck⟩ := checked_adjudicatePortfolio rfl rfl hnext
  have hid : portfolioIdFor input.command = confirm.proposal.portfolioId := by
    rw [hcommand]
    rfl
  rw [hid] at hcheck
  have hcurrent : currentAuthorization
      (portfolioAuthorizationLineage (outcomes run) confirm.proposal.portfolioId)
      confirm.proposal.portfolioId = .ok (some last) := by
    rw [currentAuthorization, portfolioAuthorizations_lineage, ← currentAuthorization,
      hlineages.current_eq]
    exact congrArg _ hlast
  exact ⟨run, _, [], confirm, rfl, hcommand, hnext, rfl,
    relaxation_of_checkConfirmation hcheck hcurrent last rfl hrelaxes⟩

/-- Every run whose events are distinct has evidence for each of its relaxations. -/
theorem evidencedLineages_trace (inputs : List AuthorizationInput)
    (hevents : (inputs.map (·.eventId)).Nodup) :
    EvidencedLineages (trace authorizePortfolio inputs) := by
  induction inputs using List.reverseRecOn with
  | nil => exact fun _ => List.isChain_nil
  | append_singleton inputs input ih =>
    rw [List.map_append, List.nodup_append] at hevents
    have hbefore := ih hevents.1
    have hlineages := authorizedLineages_trace inputs hevents.1
    rw [trace_append_singleton]
    intro portfolioId
    rw [outcomes_append, outcomes_singleton, portfolioAuthorizations_append,
      portfolioAuthorizations_singleton]
    refine List.isChain_append.mpr ⟨hbefore.isChain_append _ portfolioId, ?_, ?_⟩
    · cases Option.filter _ _ with
      | none => exact List.isChain_nil
      | some a => exact List.isChain_singleton a
    · intro last hlast next hnext
      rw [Option.head?_toList, Option.mem_def, Option.filter_eq_some_iff,
        decide_eq_true_iff] at hnext
      obtain ⟨hnext, rfl⟩ := hnext
      exact acceptedWithEvidence_of_authorization hlineages hnext hlast

/-- In a chain of budgets of which none relaxes the one before it, the last does not relax the
first. So after any run of portfolio commands, an authorization that relaxes an earlier one of its
lineage comes after a step between them that the run accepted with relaxation evidence of its
own. -/
theorem relaxation_never_sliced (inputs : List AuthorizationInput)
    (hevents : (inputs.map (·.eventId)).Nodup) :
    (∀ budgets first last, Tightening budgets → budgets.head? = some first →
      budgets.getLast? = some last → last.relaxes first = false) ∧
    ∀ portfolioId earlier a between b later,
      portfolioAuthorizations (outcomes (trace authorizePortfolio inputs)) portfolioId =
        earlier ++ a :: (between ++ b :: later) →
      b.riskBudget.relaxes a.riskBudget = true →
      ∃ x y, [x, y] <:+: a :: (between ++ [b]) ∧ Supersedes x y ∧
        y.riskBudget.relaxes x.riskBudget = true ∧
        AcceptedWithEvidence (trace authorizePortfolio inputs) x y ∧
        ∃ evidence ∈ y.confirmation.relaxationEvidence,
          evidence.predecessorAuthorizationId = x.authorizationId ∧
          evidence.predecessorRiskBudgetVersionId = x.riskBudget.versionId := by
  refine ⟨fun budgets first last h hfirst hlast => h.relaxes_eq_false hfirst hlast, ?_⟩
  intro portfolioId earlier a between b later hlineage hrelaxes
  obtain ⟨x, y, hpair, hstep⟩ := exists_relaxing_step between hrelaxes
  have hpart : (a :: (between ++ [b])) <:+:
      portfolioAuthorizations (outcomes (trace authorizePortfolio inputs)) portfolioId := by
    refine ⟨earlier, later, ?_⟩
    rw [hlineage, List.append_assoc, List.cons_append, List.append_assoc, List.singleton_append]
  have hadjacent := hpair.trans hpart
  have hlinked : Supersedes x y :=
    rel_of_adjacent ((authorizedLineages_trace inputs hevents).lineage portfolioId).linked hadjacent
  have haccepted : AcceptedWithEvidence (trace authorizePortfolio inputs) x y :=
    rel_of_adjacent (evidencedLineages_trace inputs hevents portfolioId) hadjacent hstep
  exact ⟨x, y, hpair, hlinked, hstep, haccepted, haccepted.exists_evidence⟩

namespace SampleRelaxation

open SampleAuthorization

/-- A budget that takes effect when the last one does and has a higher hard limit. -/
def relaxedBudget : PersonalRiskBudget :=
  { budget "B2" 3 with
    concentration := ⟨1 / 5, 2 / 5, (budget "B2" 3).concentration.targetRatio_pos,
      by decide +kernel, by decide +kernel⟩ }

/-- Evidence that the first budget was kept from its beginning to the confirmation. -/
def evidence : RiskBudgetRelaxationEvidence where
  predecessorAuthorizationId := "E1"
  predecessorRiskBudgetVersionId := "B1"
  normalFromAt := 0
  normalThroughAt := 2
  marketCalendarVersionId := "synthetic-market-calendar-v1"
  monthlySelectionCutoffAt := 3
  availableAt := 2
  window_ordered := by decide

def relaxing : PortfolioConfirmationCommand :=
  { second with
    proposal := { second.proposal with riskBudget := relaxedBudget }
    confirmation := { second.confirmation with relaxationEvidence := some evidence } }

def inputs : List AuthorizationInput :=
  [⟨.confirm first, "E1", 0, 0, ["A"], true, false, []⟩,
    ⟨.confirm relaxing, "E2", 3, 3, ["A"], true, false, []⟩]

def lineage : List PortfolioAuthorization :=
  portfolioAuthorizations (outcomes (trace authorizePortfolio inputs)) "P"

theorem lineage_spec : ∃ a b, lineage = [a, b] ∧ b.riskBudget.relaxes a.riskBudget = true ∧
    Tightening [budget "B1" 0, budget "B2" 3] := by
  refine ⟨⟨"E1", first.proposal, first.confirmation, none⟩,
    ⟨"E2", relaxing.proposal, relaxing.confirmation, some "E1"⟩, ?_, ?_, ?_⟩
  · decide +kernel
  · decide +kernel
  · exact List.isChain_pair.mpr (by decide +kernel)

end SampleRelaxation

open SampleAuthorization SampleRelaxation in
/-- A later budget with the same limits relaxes nothing, and a relaxation has its evidence. -/
theorem sample_relaxation : (budget "B2" 3).relaxes (budget "B1" 0) = false ∧
    ∃ x y, [x, y] <:+: lineage ∧
      AcceptedWithEvidence (trace authorizePortfolio SampleRelaxation.inputs) x y := by
  obtain ⟨a, b, hlineage, hrelaxes, hchain⟩ := lineage_spec
  obtain ⟨hbudgets, hrun⟩ := relaxation_never_sliced SampleRelaxation.inputs (by decide)
  refine ⟨hbudgets _ _ _ hchain rfl rfl, ?_⟩
  obtain ⟨x, y, hpair, -, -, haccepted, -⟩ := hrun "P" [] a [] b [] hlineage hrelaxes
  exact ⟨x, y, hlineage ▸ hpair, haccepted⟩

end StockProfiler.Portfolio
