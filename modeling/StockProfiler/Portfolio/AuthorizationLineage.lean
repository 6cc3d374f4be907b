import Mathlib.Data.List.Chain
import StockProfiler.Core.History
import StockProfiler.Portfolio.Authorization

/-!
# Portfolio authorizations form one forward lineage

Each approved confirmation succeeds the only leaf of its portfolio, so the
authorizations of a portfolio form a chain whose budgets take effect in order.
-/

namespace StockProfiler.Portfolio

/-- An authorization is the direct successor of another one. -/
def Supersedes (a b : PortfolioAuthorization) : Prop :=
  b.previousAuthorizationId = some a.authorizationId

/-- The instant at which the budget of an authorization takes effect. -/
def PortfolioAuthorization.effectiveAt (a : PortfolioAuthorization) : Instant :=
  a.proposal.riskBudget.effectiveAt

/-- Two authorizations have no budget version, snapshot, confirmation or obligation in common. -/
structure NoReuse (a b : PortfolioAuthorization) : Prop where
  version : a.proposal.riskBudget.versionId ≠ b.proposal.riskBudget.versionId
  snapshot : ∀ id ∈ proposalSnapshotIds a.proposal, id ∉ proposalSnapshotIds b.proposal
  confirmation : a.confirmation.confirmationId ≠ b.confirmation.confirmationId
  obligation : ∀ id ∈ obligationIds a.proposal, id ∉ obligationIds b.proposal

/-- Authorizations that succeed one another, each with a later budget. -/
structure ForwardLineage (as : List PortfolioAuthorization) : Prop where
  /-- The first one has no predecessor. -/
  root : ∀ a ∈ as.head?, a.previousAuthorizationId = none
  /-- Every other one names the one before it. -/
  linked : as.IsChain Supersedes
  distinct : (as.map (·.authorizationId)).Nodup
  forward : as.Pairwise fun a b => a.effectiveAt < b.effectiveAt
  noReuse : as.Pairwise NoReuse

theorem forwardLineage_nil : ForwardLineage [] where
  root := fun a ha => absurd ha (Option.not_mem_none a)
  linked := List.isChain_nil
  distinct := List.nodup_nil
  forward := List.Pairwise.nil
  noReuse := List.Pairwise.nil

variable {as bs : List PortfolioAuthorization} {a : PortfolioAuthorization}

theorem ForwardLineage.of_append (h : ForwardLineage (as ++ bs)) : ForwardLineage as where
  root := fun a ha => h.root a (by rw [List.head?_append, Option.mem_def.mp ha]; rfl)
  linked := h.linked.left_of_append
  distinct := (List.map_append ▸ h.distinct).of_append_left
  forward := (List.pairwise_append.mp h.forward).1
  noReuse := (List.pairwise_append.mp h.noReuse).1

/-- A lineage grows by a successor of its last authorization. -/
theorem ForwardLineage.snoc (h : ForwardLineage as)
    (hroot : as = [] → a.previousAuthorizationId = none)
    (hlast : ∀ last ∈ as.getLast?, Supersedes last a ∧ last.effectiveAt < a.effectiveAt)
    (hfresh : a.authorizationId ∉ as.map (·.authorizationId)) (hreuse : ∀ b ∈ as, NoReuse b a) :
    ForwardLineage (as ++ [a]) where
  root := by
    intro b hb
    cases as with
    | nil => exact Option.some.inj hb ▸ hroot rfl
    | cons first as => exact h.root b hb
  linked := List.isChain_append.mpr ⟨h.linked, List.isChain_singleton a, fun last hlast' b hb =>
    Option.some.inj hb ▸ (hlast last hlast').1⟩
  distinct := by
    rw [List.map_append, List.map_singleton]
    exact List.nodup_append.mpr ⟨h.distinct, List.nodup_singleton _, fun id hid other hother heq =>
      hfresh (List.mem_singleton.mp hother ▸ heq ▸ hid)⟩
  forward := by
    refine List.pairwise_append.mpr ⟨h.forward, List.pairwise_singleton .., fun b hb c hc => ?_⟩
    obtain rfl := List.mem_singleton.mp hc
    rcases List.eq_nil_or_concat as with rfl | ⟨front, last, rfl⟩
    · exact nomatch hb
    · rw [List.concat_eq_append] at h hb hlast
      have hstep := (hlast last List.getLast?_concat).2
      rcases List.mem_append.mp hb with hb | hb
      · obtain ⟨-, -, hbefore⟩ := List.pairwise_append.mp h.forward
        exact (hbefore b hb last (List.mem_singleton_self last)).trans hstep
      · exact List.mem_singleton.mp hb ▸ hstep
  noReuse := List.pairwise_append.mpr ⟨h.noReuse, List.pairwise_singleton .., fun b hb c hc =>
    List.mem_singleton.mp hc ▸ hreuse b hb⟩

/-- The authorizations that a lineage supersedes are all before its last one. -/
theorem ForwardLineage.superseded_eq (h : ForwardLineage (as ++ [a])) :
    (as ++ [a]).filterMap (·.previousAuthorizationId) = as.map (·.authorizationId) := by
  induction as using List.reverseRecOn generalizing a with
  | nil => rw [List.nil_append, List.filterMap_cons, h.root a rfl, List.filterMap_nil]; rfl
  | append_singleton as last ih =>
    obtain ⟨-, -, hlinked⟩ := List.isChain_append.mp h.linked
    have hsupersedes : Supersedes last a := hlinked last (List.getLast?_concat ..) a rfl
    rw [List.filterMap_append, ih h.of_append, List.map_append, List.filterMap_cons, hsupersedes]
    rfl

/-- A lineage has exactly one leaf, the last authorization. -/
theorem ForwardLineage.lineageLeaf_eq (h : ForwardLineage as) :
    lineageLeaf as = .ok as.getLast? := by
  rcases List.eq_nil_or_concat as with rfl | ⟨front, last, rfl⟩
  · rfl
  · rw [List.concat_eq_append] at h ⊢
    have hdistinct := h.distinct
    rw [List.map_append, List.map_singleton, List.nodup_append] at hdistinct
    obtain ⟨-, -, hdistinct⟩ := hdistinct
    have hleaf : (front ++ [last]).filter
        (·.authorizationId ∉ front.map (·.authorizationId)) = [last] := by
      rw [List.filter_append, List.filter_eq_nil_iff.mpr, List.nil_append,
        List.filter_cons_of_pos, List.filter_nil]
      · refine decide_eq_true fun hmem => ?_
        exact hdistinct _ hmem _ (List.mem_singleton_self _) rfl
      · intro b hb
        rw [decide_eq_true_iff, not_not]
        exact List.mem_map_of_mem hb
    unfold lineageLeaf
    rw [if_neg (by simp)]
    dsimp only
    rw [h.superseded_eq, hleaf, List.getLast?_concat]

/-- The authorizations in effect by an instant are the first ones of a lineage. -/
theorem ForwardLineage.effective_prefix (h : ForwardLineage as) (t : Instant) :
    ∃ later, as = as.filter (·.proposal.riskBudget.effectiveAt ≤ t) ++ later := by
  induction as using List.reverseRecOn with
  | nil => exact ⟨[], rfl⟩
  | append_singleton as a ih =>
    by_cases ha : a.proposal.riskBudget.effectiveAt ≤ t
    · refine ⟨[], ?_⟩
      rw [List.append_nil, List.filter_eq_self.mpr]
      intro b hb
      obtain ⟨-, -, hlast⟩ := List.pairwise_append.mp h.forward
      rcases List.mem_append.mp hb with hb | hb
      · exact decide_eq_true ((hlast b hb a (List.mem_singleton_self a)).le.trans ha)
      · exact decide_eq_true (List.mem_singleton.mp hb ▸ ha)
    · obtain ⟨later, hlater⟩ := ih h.of_append
      refine ⟨later ++ [a], ?_⟩
      rw [List.filter_append, List.filter_cons_of_neg (by simpa using ha), List.filter_nil,
        List.append_nil, ← List.append_assoc, ← hlater]

/-- Among the authorizations in effect by an instant there is one leaf, the last. -/
theorem ForwardLineage.effective_leaf_eq (h : ForwardLineage as) (t : Instant) :
    lineageLeaf (as.filter (·.proposal.riskBudget.effectiveAt ≤ t)) =
      .ok (as.filter (·.proposal.riskBudget.effectiveAt ≤ t)).getLast? := by
  obtain ⟨later, hlater⟩ := h.effective_prefix t
  exact (hlater ▸ h).of_append.lineageLeaf_eq

/-- One portfolio command as the ledger receives it. -/
structure AuthorizationInput where
  command : PortfolioCommand
  eventId : String
  observedAt : Instant
  knowledgeCutoff : Instant
  accessAccountIds : List String
  businessPrerequisiteMet : Bool := true
  requireCurrentAuthorization : Bool := false
  stressHistory : List PortfolioStressOutcome := []

/-- The retained outcomes of an owner that have an authorization. -/
def portfolioAuthorizationOwnerLineage (history : List PortfolioAuthorizationOutcome) :
    List PortfolioAuthorizationOutcome :=
  history.filter (·.authorization.isSome)

/-- The retained authorizations of one portfolio. -/
def portfolioAuthorizationLineage (history : List PortfolioAuthorizationOutcome)
    (portfolioId : String) : List PortfolioAuthorizationOutcome :=
  (portfolioAuthorizationOwnerLineage history).filter
    (·.authorization.any (·.proposal.portfolioId = portfolioId))

/-- The visible lineage whose retained evidence predates a cutoff. -/
def portfolioAuthorizationHistory (history : List PortfolioAuthorizationOutcome)
    (portfolioId : String) (knowledgeCutoff : Instant) : List PortfolioAuthorizationOutcome :=
  (portfolioAuthorizationLineage history portfolioId).filter
    (·.authorization.any (·.evidenceAvailableBy knowledgeCutoff))

/-- The context that the ledger gives a command. -/
def authorizationContext (history : List PortfolioAuthorizationOutcome)
    (input : AuthorizationInput) : AdjudicationContext :=
  let portfolioId := portfolioIdFor input.command
  { eventId := input.eventId
    observedAt := input.observedAt
    knowledgeCutoff := input.knowledgeCutoff
    history := portfolioAuthorizationHistory history portfolioId input.knowledgeCutoff
    lineageHistory := some (portfolioAuthorizationLineage history portfolioId)
    ownerLineageHistory := some (portfolioAuthorizationOwnerLineage history)
    accessAccountIds := input.accessAccountIds
    businessPrerequisiteMet := input.businessPrerequisiteMet
    requireCurrentAuthorization := input.requireCurrentAuthorization
    stressHistory := input.stressHistory }

/-- Adjudicate a command with the full prior lineage. -/
def authorizePortfolio (history : List PortfolioAuthorizationOutcome) (input : AuthorizationInput) :
    PortfolioAuthorizationOutcome :=
  adjudicatePortfolio (authorizationContext history input) input.command

section Lineage

variable {history : List PortfolioAuthorizationOutcome} {portfolioId : String}

@[simp] theorem authorizations_nil : authorizations [] = [] := rfl

@[simp] theorem authorizations_append (earlier later : List PortfolioAuthorizationOutcome) :
    authorizations (earlier ++ later) = authorizations earlier ++ authorizations later :=
  List.filterMap_append

theorem portfolioAuthorizations_append (earlier later : List PortfolioAuthorizationOutcome) :
    portfolioAuthorizations (earlier ++ later) portfolioId =
      portfolioAuthorizations earlier portfolioId ++ portfolioAuthorizations later portfolioId := by
  rw [portfolioAuthorizations, authorizations_append, List.filter_append]
  rfl

theorem mem_portfolioAuthorizations {a : PortfolioAuthorization} :
    a ∈ portfolioAuthorizations history portfolioId ↔
      a ∈ authorizations history ∧ a.proposal.portfolioId = portfolioId := by
  rw [portfolioAuthorizations, List.mem_filter, decide_eq_true_iff]

/-- The authorizations of the outcomes that a test on them retains. -/
theorem authorizations_filter (test : PortfolioAuthorization → Bool)
    (history : List PortfolioAuthorizationOutcome) :
    authorizations (history.filter (·.authorization.any test)) =
      (authorizations history).filter test := by
  unfold authorizations
  induction history with
  | nil => rfl
  | cons o history ih =>
    cases h : o.authorization with
    | none => simp [h, ih]
    | some a => by_cases ha : test a <;> simp [h, ha, ih]

/-- The lineage of an owner has every authorization. -/
@[simp] theorem authorizations_ownerLineage :
    authorizations (portfolioAuthorizationOwnerLineage history) = authorizations history := by
  unfold portfolioAuthorizationOwnerLineage
  simp only [← Option.any_true]
  rw [authorizations_filter, List.filter_true]

/-- The lineage of a portfolio has every authorization of the portfolio. -/
@[simp] theorem portfolioAuthorizations_lineage :
    portfolioAuthorizations (portfolioAuthorizationLineage history portfolioId) portfolioId =
      portfolioAuthorizations history portfolioId := by
  unfold portfolioAuthorizations portfolioAuthorizationLineage
  rw [authorizations_filter, authorizations_ownerLineage, List.filter_filter]
  simp only [Bool.and_self]

/-- The visible lineage has authorizations of the portfolio only. -/
theorem authorizations_history_subset {cutoff : Instant} :
    authorizations (portfolioAuthorizationHistory history portfolioId cutoff) ⊆
      portfolioAuthorizations history portfolioId := by
  unfold portfolioAuthorizationHistory portfolioAuthorizationLineage
  rw [authorizations_filter, authorizations_filter, authorizations_ownerLineage]
  exact (List.filter_sublist ..).subset

end Lineage

end StockProfiler.Portfolio
