import StockProfiler.Portfolio.AuthorizationLineage

/-!
# Runs of portfolio commands

Whatever commands an owner gives, in whatever order, the authorizations retained
so far are forward lineages with accounts of their own.
-/

namespace StockProfiler.Portfolio

variable {o : PortfolioAuthorizationOutcome} {ctx : AdjudicationContext}
  {a : PortfolioAuthorization}

section Confirmation

variable {command : PortfolioConfirmationCommand} {cutoff : Instant}
  {lineage ownerLineage : List PortfolioAuthorizationOutcome}
  {stressHistory : List PortfolioStressOutcome} {current : Option PortfolioAuthorization}

/-- A checked command names the leaf of its portfolio, if there is one. -/
theorem previous_of_checkSuccessor (h : checkSuccessor command cutoff current = .ok ()) :
    command.previousAuthorizationId = current.map (·.authorizationId) := by
  cases current with
  | none => exact require_eq_ok.mp h
  | some current =>
    simp only [checkSuccessor, bind_eq_ok, require_eq_ok] at h
    obtain ⟨-, -, -, -, -, hprevious, -⟩ := h
    exact hprevious

/-- A checked budget takes effect after the one that it succeeds. -/
theorem forward_of_checkForward
    (h : checkForward command lineage cutoff stressHistory current = .ok ()) : ∀ previous ∈ current,
      previous.effectiveAt < command.proposal.riskBudget.effectiveAt := by
  rintro previous rfl
  simp only [checkForward, bind_eq_ok, require_eq_ok] at h
  obtain ⟨-, hforward, -⟩ := h
  exact hforward

/-- What a checked command adds to the lineage of its portfolio. -/
structure Succeeds (command : PortfolioConfirmationCommand)
    (lineage ownerLineage : List PortfolioAuthorizationOutcome)
    (current : Option PortfolioAuthorization) : Prop where
  previous : command.previousAuthorizationId = current.map (·.authorizationId)
  forward : ∀ a ∈ current, a.effectiveAt < command.proposal.riskBudget.effectiveAt
  version : ∀ a ∈ portfolioAuthorizations lineage command.proposal.portfolioId,
    a.proposal.riskBudget.versionId ≠ command.proposal.riskBudget.versionId
  snapshot : ∀ a ∈ portfolioAuthorizations lineage command.proposal.portfolioId,
    ∀ id ∈ proposalSnapshotIds a.proposal, id ∉ proposalSnapshotIds command.proposal
  confirmation : ∀ a ∈ portfolioAuthorizations lineage command.proposal.portfolioId,
    a.confirmation.confirmationId ≠ command.confirmation.confirmationId
  obligation : ∀ a ∈ portfolioAuthorizations lineage command.proposal.portfolioId,
    ∀ id ∈ obligationIds a.proposal, id ∉ obligationIds command.proposal
  /-- No other portfolio of the owner has one of the accounts. -/
  accounts : ∀ a ∈ authorizations ownerLineage,
    a.proposal.portfolioId ≠ command.proposal.portfolioId →
      ∀ id ∈ command.proposal.snapshot.accountIds, id ∉ a.proposal.snapshot.accountIds

theorem accounts_of_not_overlapping (h : !overlappingPortfolioScope command.proposal ownerLineage) :
    ∀ a ∈ authorizations ownerLineage, a.proposal.portfolioId ≠ command.proposal.portfolioId →
      ∀ id ∈ command.proposal.snapshot.accountIds, id ∉ a.proposal.snapshot.accountIds := by
  intro a ha hne id hid hmem
  rw [overlappingPortfolioScope, Bool.not_eq_true', List.any_eq_false] at h
  exact h a ha (decide_eq_true ⟨hne, id, hid, hmem⟩)

/-- A confirmation that passes its checks succeeds the leaf of its portfolio. -/
theorem succeeds_of_checkConfirmation
    (h : checkConfirmation command cutoff lineage ownerLineage stressHistory = .ok ()) :
    ∃ current, currentAuthorization lineage command.proposal.portfolioId = .ok current ∧
      Succeeds command lineage ownerLineage current := by
  simp only [checkConfirmation, checkReusedIdentity, checkReusedObligations, bind_eq_ok,
    require_eq_ok] at h
  obtain ⟨-, hscope, current, hcurrent, ⟨⟩, hsuccessor, -, -, -, -, -, -, -, hidentity,
    -, hobligation, hforward⟩ := h
  obtain ⟨-, hversion, -, hsnapshot, hconfirmation⟩ := hidentity
  exact ⟨current, hcurrent, previous_of_checkSuccessor hsuccessor,
    forward_of_checkForward hforward, hversion, hsnapshot, hconfirmation, hobligation,
    accounts_of_not_overlapping hscope⟩

end Confirmation

theorem authorization_adjudicateUse (ctx : AdjudicationContext) (command : PortfolioUseCommand)
    (history lineage : List PortfolioAuthorizationOutcome) :
    (adjudicateUse ctx command history lineage).authorization = none := by
  unfold adjudicateUse
  dsimp only
  repeat' split
  all_goals rfl

theorem checked_adjudicateConfirmation {command : PortfolioConfirmationCommand}
    {lineage ownerLineage : List PortfolioAuthorizationOutcome}
    (h : (adjudicateConfirmation ctx command lineage ownerLineage).authorization = some a) :
    a = ⟨ctx.eventId, command.proposal, command.confirmation, command.previousAuthorizationId⟩ ∧
      checkConfirmation command ctx.knowledgeCutoff lineage ownerLineage ctx.stressHistory =
        .ok () := by
  unfold adjudicateConfirmation at h
  split at h
  · exact nomatch h
  · split at h
    · exact nomatch h
    · dsimp only at h
      split at h
      · exact nomatch h
      · rename_i hreasons
        refine ⟨(Option.some.inj h).symm, ?_⟩
        unfold confirmationReasons at hreasons
        split at hreasons
        · exact absurd (List.cons_ne_nil _ _) hreasons
        · assumption

section Adjudicated

variable {command : PortfolioCommand} {lineage ownerLineage : List PortfolioAuthorizationOutcome}
  (hlineage : ctx.lineageHistory = some lineage)
  (howner : ctx.ownerLineageHistory = some ownerLineage)
  (h : (adjudicatePortfolio ctx command).authorization = some a)
include hlineage howner h

/-- Only a confirmation that passed its checks is authorized. -/
theorem checked_adjudicatePortfolio :
    ∃ confirm, command = .confirm confirm ∧
      a = ⟨ctx.eventId, confirm.proposal, confirm.confirmation, confirm.previousAuthorizationId⟩ ∧
      checkConfirmation confirm ctx.knowledgeCutoff lineage ownerLineage ctx.stressHistory =
        .ok () := by
  unfold adjudicatePortfolio at h
  rw [hlineage, howner] at h
  dsimp only [Option.getD_some] at h
  cases command with
  | preview proposal =>
    dsimp only at h
    split at h <;> exact nomatch h
  | use command =>
    dsimp only at h
    exact nomatch (authorization_adjudicateUse ..).symm.trans h
  | confirm confirm =>
    dsimp only at h
    split at h
    · exact nomatch h
    · exact ⟨confirm, rfl, checked_adjudicateConfirmation h⟩

/-- Only a confirmation that succeeds the leaf of its portfolio is authorized. -/
theorem authorization_adjudicatePortfolio :
    ∃ confirm, command = .confirm confirm ∧
      a = ⟨ctx.eventId, confirm.proposal, confirm.confirmation, confirm.previousAuthorizationId⟩ ∧
      ∃ current, currentAuthorization lineage confirm.proposal.portfolioId = .ok current ∧
        Succeeds confirm lineage ownerLineage current := by
  obtain ⟨confirm, hcommand, ha, hcheck⟩ := checked_adjudicatePortfolio hlineage howner h
  exact ⟨confirm, hcommand, ha, succeeds_of_checkConfirmation hcheck⟩

end Adjudicated

/-- Every portfolio has a forward lineage, with accounts that no other portfolio has. -/
structure AuthorizedLineages (history : List PortfolioAuthorizationOutcome) : Prop where
  lineage : ∀ portfolioId, ForwardLineage (portfolioAuthorizations history portfolioId)
  accounts : ∀ a ∈ authorizations history, ∀ b ∈ authorizations history,
    a.proposal.portfolioId ≠ b.proposal.portfolioId →
      ∀ id ∈ a.proposal.snapshot.accountIds, id ∉ b.proposal.snapshot.accountIds

theorem authorizedLineages_nil : AuthorizedLineages [] where
  lineage := fun _ => forwardLineage_nil
  accounts := fun _ ha => absurd ha List.not_mem_nil

variable {history : List PortfolioAuthorizationOutcome}

/-- The current authorization of a portfolio is its last one. -/
theorem AuthorizedLineages.current_eq (h : AuthorizedLineages history) (portfolioId : String) :
    currentAuthorization history portfolioId =
      .ok (portfolioAuthorizations history portfolioId).getLast? :=
  (h.lineage portfolioId).lineageLeaf_eq

/-- An outcome without an authorization changes no lineage. -/
theorem AuthorizedLineages.snoc_none (h : AuthorizedLineages history)
    (ho : o.authorization = none) : AuthorizedLineages (history ++ [o]) := by
  have hnone : authorizations [o] = [] := List.filterMap_eq_nil_iff.mpr fun x hx =>
    List.mem_singleton.mp hx ▸ ho
  have hsame : authorizations (history ++ [o]) = authorizations history := by
    rw [authorizations_append, hnone, List.append_nil]
  refine ⟨fun portfolioId => ?_, hsame ▸ h.accounts⟩
  unfold portfolioAuthorizations
  rw [hsame]
  exact h.lineage portfolioId

/-- A confirmation that succeeds the leaf of its portfolio extends one lineage by it. -/
theorem AuthorizedLineages.snoc_some (h : AuthorizedLineages history)
    {confirm : PortfolioConfirmationCommand} {eventId : String}
    {current : Option PortfolioAuthorization} (ho : o.authorization =
      some ⟨eventId, confirm.proposal, confirm.confirmation, confirm.previousAuthorizationId⟩)
    (hfresh : ∀ a ∈ authorizations history, a.authorizationId ≠ eventId)
    (hcurrent : currentAuthorization
      (portfolioAuthorizationLineage history confirm.proposal.portfolioId)
      confirm.proposal.portfolioId = .ok current) (hsucceeds : Succeeds confirm
      (portfolioAuthorizationLineage history confirm.proposal.portfolioId)
      (portfolioAuthorizationOwnerLineage history) current) :
    AuthorizedLineages (history ++ [o]) := by
  rw [currentAuthorization, portfolioAuthorizations_lineage,
    (h.lineage _).lineageLeaf_eq] at hcurrent
  cases hcurrent
  obtain ⟨hprevious, hforward, hversion, hsnapshot, hconfirmation, hobligation, haccounts⟩ :=
    hsucceeds
  rw [portfolioAuthorizations_lineage] at hversion hsnapshot hconfirmation hobligation
  rw [authorizations_ownerLineage] at haccounts
  have hnew : authorizations [o] =
      [⟨eventId, confirm.proposal, confirm.confirmation, confirm.previousAuthorizationId⟩] := by
    rw [authorizations, List.filterMap_cons, ho, List.filterMap_nil]
  constructor
  case lineage =>
    intro portfolioId
    rw [portfolioAuthorizations_append]
    by_cases hsame : confirm.proposal.portfolioId = portfolioId
    · subst hsame
      have hown : portfolioAuthorizations [o] confirm.proposal.portfolioId = [⟨eventId,
          confirm.proposal, confirm.confirmation, confirm.previousAuthorizationId⟩] := by
        rw [portfolioAuthorizations, hnew]
        exact List.filter_cons_of_pos (decide_eq_true rfl)
      rw [hown]
      refine (h.lineage _).snoc (fun hnil => ?_) (fun last hlast => ⟨?_, hforward last hlast⟩) ?_
        fun b hb => ⟨hversion b hb, hsnapshot b hb, hconfirmation b hb, hobligation b hb⟩
      · rw [hprevious, hnil]
        rfl
      · rw [Supersedes, hprevious, Option.mem_def.mp hlast]
        rfl
      · intro hmem
        obtain ⟨b, hb, hid⟩ := List.mem_map.mp hmem
        exact hfresh b (mem_portfolioAuthorizations.mp hb).1 hid
    · have hother : portfolioAuthorizations [o] portfolioId = [] := by
        rw [portfolioAuthorizations, hnew]
        exact List.filter_cons_of_neg (by simpa using hsame)
      rw [hother, List.append_nil]
      exact h.lineage portfolioId
  case accounts =>
    intro a ha b hb hne id hid hmem
    rw [authorizations_append, hnew, List.mem_append, List.mem_singleton] at ha hb
    rcases ha with ha | rfl <;> rcases hb with hb | rfl
    · exact h.accounts a ha b hb hne id hid hmem
    · exact haccounts a ha hne id hmem hid
    · exact haccounts b hb hne.symm id hid hmem
    · exact hne rfl

section Runs

variable (inputs : List AuthorizationInput)

/-- The authorizations of a run have the identities of their commands. -/
theorem authorizationIds_sublist :
    ((authorizations (outcomes (trace authorizePortfolio inputs))).map
      (·.authorizationId)).Sublist (inputs.map (·.eventId)) := by
  induction inputs using List.reverseRecOn with
  | nil => exact List.Sublist.refl _
  | append_singleton inputs input ih =>
    rw [trace_append_singleton, outcomes_append, authorizations_append, List.map_append,
      List.map_append]
    refine ih.append ?_
    rw [outcomes_singleton]
    dsimp only
    generalize ho : authorizePortfolio _ input = o
    cases hauthorization : o.authorization with
    | none =>
      rw [authorizations, List.filterMap_cons, hauthorization]
      exact List.nil_sublist _
    | some a =>
      obtain ⟨confirm, -, rfl, -⟩ := authorization_adjudicatePortfolio rfl rfl
        ((congrArg (·.authorization) ho).trans hauthorization)
      rw [authorizations, List.filterMap_cons, hauthorization]
      exact List.Sublist.refl _

/-- Every run whose events are distinct leaves lineages. -/
theorem authorizedLineages_trace (hevents : (inputs.map (·.eventId)).Nodup) :
    AuthorizedLineages (outcomes (trace authorizePortfolio inputs)) := by
  induction inputs using List.reverseRecOn with
  | nil => exact authorizedLineages_nil
  | append_singleton inputs input ih =>
    rw [List.map_append, List.nodup_append] at hevents
    obtain ⟨hevents, -, hfresh⟩ := hevents
    have h := ih hevents
    rw [trace_append_singleton, outcomes_append, outcomes_singleton]
    dsimp only
    generalize ho : authorizePortfolio _ input = o
    cases hauthorization : o.authorization with
    | none => exact h.snoc_none hauthorization
    | some a =>
      obtain ⟨confirm, hcommand, rfl, current, hcurrent, hsucceeds⟩ :=
        authorization_adjudicatePortfolio rfl rfl
          ((congrArg (·.authorization) ho).trans hauthorization)
      have hid : portfolioIdFor input.command = confirm.proposal.portfolioId := by
        rw [hcommand]
        rfl
      rw [hid] at hcurrent hsucceeds
      refine h.snoc_some hauthorization (fun a ha heq => ?_) hcurrent hsucceeds
      have hmem := (authorizationIds_sublist inputs).subset (List.mem_map_of_mem ha)
      exact hfresh _ hmem _ (List.mem_singleton_self _) heq

end Runs

/-- The reason for a lineage without a single leaf. -/
def historyConflict : String := "AUTHORIZATION_HISTORY_CONFLICT"

section Denial

variable {previous : PortfolioAuthorization} {command : PortfolioConfirmationCommand}
  {cutoff : Instant} {lineage ownerLineage : List PortfolioAuthorizationOutcome}
  {stressHistory : List PortfolioStressOutcome} {current : Option PortfolioAuthorization}

theorem checkDownsideGridRequalification_failsWith :
    FailsWith (· ≠ historyConflict)
      (checkDownsideGridRequalification command previous cutoff) := by
  unfold checkDownsideGridRequalification
  dsimp only
  split
  · exact failsWith_ok ()
  · refine (failsWith_require (by decide)).bind fun _ _ => ?_
    refine (failsWith_known (by decide)).bind fun _ _ => ?_
    exact failsWith_require (by decide)

theorem checkRelaxation_failsWith :
    FailsWith (· ≠ historyConflict)
      (checkRelaxation command previous lineage cutoff stressHistory) := by
  unfold checkRelaxation
  refine (failsWith_known (by decide)).bind fun _ _ => ?_
  refine (failsWith_require (by decide)).bind fun _ _ => ?_
  exact failsWith_require (by decide)

theorem checkSuccessor_failsWith :
    FailsWith (· ≠ historyConflict) (checkSuccessor command cutoff current) := by
  cases current with
  | none => exact failsWith_require (by decide)
  | some previous =>
    refine (failsWith_require (by decide)).bind fun _ _ => ?_
    refine (failsWith_require (by decide)).bind fun _ _ => ?_
    refine (failsWith_require (by decide)).bind fun _ _ => ?_
    exact checkDownsideGridRequalification_failsWith

theorem checkReusedIdentity_failsWith :
    FailsWith (· ≠ historyConflict) (checkReusedIdentity command lineage) := by
  unfold checkReusedIdentity
  refine (failsWith_require (by decide)).bind fun _ _ => ?_
  refine (failsWith_require (by decide)).bind fun _ _ => ?_
  exact failsWith_require (by decide)

theorem checkForward_failsWith : FailsWith (· ≠ historyConflict)
    (checkForward command lineage cutoff stressHistory current) := by
  cases current with
  | none => exact failsWith_ok ()
  | some previous =>
    refine (failsWith_require (by decide)).bind fun _ _ => ?_
    split
    · exact checkRelaxation_failsWith
    · exact failsWith_ok ()

/-- With one leaf at most, no check of a confirmation finds a conflict. -/
theorem checkConfirmation_failsWith
    (h : currentAuthorization lineage command.proposal.portfolioId = .ok current) :
    FailsWith (· ≠ historyConflict)
      (checkConfirmation command cutoff lineage ownerLineage stressHistory) := by
  unfold checkConfirmation
  refine (failsWith_require (by decide)).bind fun _ _ => ?_
  refine (h ▸ failsWith_ok current).bind fun _ _ => ?_
  refine checkSuccessor_failsWith.bind fun _ _ => ?_
  refine (failsWith_require (by decide)).bind fun _ _ => ?_
  refine (failsWith_require (by decide)).bind fun _ _ => ?_
  refine (failsWith_require (by decide)).bind fun _ _ => ?_
  refine checkReusedIdentity_failsWith.bind fun _ _ => ?_
  refine (failsWith_require (by decide)).bind fun _ _ => ?_
  exact checkForward_failsWith

theorem historyConflict_not_mem_blockReasons (proposal : PortfolioProposal) :
    historyConflict ∉ blockReasons proposal := by
  have hblocking : ∀ snapshot, historyConflict ∉ blockingReasons snapshot := by
    intro snapshot hmem
    obtain ⟨account, -, hreason⟩ := List.mem_map.mp hmem
    unfold exclusionReason at hreason
    split at hreason
    · exact absurd hreason (by decide)
    · split at hreason <;> exact absurd hreason (by decide)
  unfold blockReasons
  rw [List.mem_eraseDups, List.mem_append, not_or]
  refine ⟨hblocking _, ?_⟩
  cases proposal.activationSnapshot with
  | none => exact List.not_mem_nil
  | some activation => exact hblocking activation

theorem historyConflict_not_mem_singleton {reason : String} (h : reason ≠ historyConflict) :
    historyConflict ∉ [reason] := fun hmem => h (List.mem_singleton.mp hmem).symm

theorem checkEvidence_failsWith {availableBy : Instant → Bool} {now : Instant} :
    FailsWith (· ≠ historyConflict) (checkEvidence availableBy cutoff now) :=
  (failsWith_require (by decide)).bind fun _ _ => failsWith_require (by decide)

/-- With one leaf at most, a confirmation is never denied for a conflict of the history. -/
theorem historyConflict_not_mem_adjudicateConfirmation
    (h : currentAuthorization lineage command.proposal.portfolioId = .ok current) :
    historyConflict ∉ (adjudicateConfirmation ctx command lineage ownerLineage).reasons := by
  unfold adjudicateConfirmation
  split
  · rename_i reason hreason
    exact historyConflict_not_mem_singleton (checkEvidence_failsWith reason hreason)
  · split
    · exact historyConflict_not_mem_singleton (by decide)
    · dsimp only
      split
      · show historyConflict ∉ confirmationReasons _ _ _ _ _
        unfold confirmationReasons
        split
        · rename_i reason hreason
          exact historyConflict_not_mem_singleton (checkConfirmation_failsWith h reason hreason)
        · exact historyConflict_not_mem_blockReasons _
      · exact historyConflict_not_mem_singleton (by decide)

theorem historyConflict_not_mem_adjudicatePortfolio (hlineage : ctx.lineageHistory = some lineage)
    (h : currentAuthorization lineage command.proposal.portfolioId = .ok current) :
    historyConflict ∉ (adjudicatePortfolio ctx (.confirm command)).reasons := by
  unfold adjudicatePortfolio
  rw [hlineage]
  dsimp only [Option.getD_some]
  split
  · rename_i reason hreason
    exact historyConflict_not_mem_singleton (checkEvidence_failsWith reason hreason)
  · exact historyConflict_not_mem_adjudicateConfirmation h

end Denial

section Exposure

variable {command : PortfolioUseCommand} {history : List PortfolioAuthorizationOutcome}
  {portfolioId : String} {t : Instant}

/-- At an instant an authorization of a portfolio is allowed for new exposure. -/
def AllowedForNewExposure (history : List PortfolioAuthorizationOutcome) (portfolioId : String)
    (t : Instant) (a : PortfolioAuthorization) : Prop :=
  ∃ input command usage, input.command = .use command ∧ command.portfolioId = portfolioId ∧
    command.requestedAction = .newExposure ∧ input.observedAt = t ∧
    (authorizePortfolio history input).usage = some usage ∧ usage.allowed = true ∧
    usage.authorizationSnapshot = a

/-- A use that is allowed for new exposure is one of the authorization in effect. -/
theorem useDecision_allowed {visible lineage : List PortfolioAuthorizationOutcome} {reason : String}
    (haction : command.requestedAction = .newExposure)
    (h : useDecision command t visible lineage a = .ok (true, reason)) :
    a.effectiveAt ≤ t ∧ ∃ active, activeAuthorization lineage command.portfolioId t = .ok active ∧
      ∀ b ∈ active, b.authorizationId = a.authorizationId := by
  unfold useDecision at h
  split at h
  · exact nomatch h
  · rename_i heffective
    rw [if_neg (by rw [haction]; exact nofun)] at h
    obtain ⟨active, hactive, h⟩ := bind_eq_ok.mp h
    refine ⟨not_lt.mp heffective, active, hactive, fun b hb => ?_⟩
    by_contra hne
    rw [if_pos ((Option.any_eq_true _ _).mpr ⟨b, hb, decide_eq_true hne⟩)] at h
    exact nomatch h

/-- What a use retains, it retains of an authorization that it found. -/
theorem usage_adjudicateUse {visible lineage : List PortfolioAuthorizationOutcome}
    {usage : PortfolioAuthorizationUsage}
    (h : (adjudicateUse ctx command visible lineage).usage = some usage) :
    authorizationById visible command.portfolioId command.authorizationId =
        some usage.authorizationSnapshot ∧
      ∃ reason, useDecision command ctx.observedAt visible lineage usage.authorizationSnapshot =
        .ok (usage.allowed, reason) := by
  unfold adjudicateUse at h
  dsimp only at h
  split at h
  · exact nomatch h
  · split at h
    · exact nomatch h
    · rename_i a hfound
      split at h
      · exact nomatch h
      · split at h
        · exact nomatch h
        · split at h
          · exact nomatch h
          · rename_i allowed reason hdecision
            cases h
            exact ⟨hfound, reason, hdecision⟩

theorem authorizations_historyAvailableBy_subset {cutoff : Instant} :
    authorizations (historyAvailableBy history cutoff) ⊆ authorizations history :=
  List.filterMap_subset _ (List.filter_sublist ..).subset

/-- An authorization that is allowed for new exposure is the last in effect of its lineage. -/
theorem AuthorizedLineages.allowed_eq (h : AuthorizedLineages history)
    (ha : AllowedForNewExposure history portfolioId t a) :
    ((portfolioAuthorizations history portfolioId).filter
      (·.proposal.riskBudget.effectiveAt ≤ t)).getLast? = some a := by
  obtain ⟨input, command, usage, hcommand, rfl, haction, rfl, husage, hallowed, rfl⟩ := ha
  rw [authorizePortfolio, hcommand] at husage
  obtain ⟨hfound, reason, hdecision⟩ := usage_adjudicateUse husage
  rw [hallowed] at hdecision
  obtain ⟨heffective, active, hactive, hsame⟩ := useDecision_allowed haction hdecision
  have hid : portfolioIdFor input.command = command.portfolioId := by
    rw [hcommand]
    rfl
  -- the authorization is one of the lineage, and in effect
  have hmem : usage.authorizationSnapshot ∈
      portfolioAuthorizations history command.portfolioId := by
    have hvisible := (mem_portfolioAuthorizations.mp (List.mem_of_find?_eq_some hfound)).1
    have hretained := authorizations_history_subset
      (authorizations_historyAvailableBy_subset hvisible)
    exact hid ▸ hretained
  have hin : usage.authorizationSnapshot ∈ (portfolioAuthorizations history
      command.portfolioId).filter (·.proposal.riskBudget.effectiveAt ≤ input.observedAt) :=
    List.mem_filter.mpr ⟨hmem, decide_eq_true heffective⟩
  -- and so is the one that the use is checked against
  have hlineage : activeAuthorization (portfolioAuthorizationLineage history command.portfolioId)
      command.portfolioId input.observedAt = .ok active := hid ▸ hactive
  rw [activeAuthorization, portfolioAuthorizations_lineage,
    (h.lineage _).effective_leaf_eq] at hlineage
  cases hlineage
  obtain ⟨last, hlast⟩ := Option.isSome_iff_exists.mp
    (List.getLast?_isSome.mpr (List.ne_nil_of_mem hin))
  rw [hlast]
  have hlastMem := (List.mem_filter.mp (List.mem_of_getLast? hlast)).1
  exact congrArg some (List.inj_on_of_nodup_map (h.lineage _).distinct hlastMem hmem
    (hsame last hlast))

end Exposure

/-- No confirmation of a run is denied for a conflict of the history. -/
theorem historyConflict_unreachable (inputs : List AuthorizationInput)
    (hevents : (inputs.map (·.eventId)).Nodup) :
    ∀ e ∈ trace authorizePortfolio inputs, ∀ command, e.input.command = .confirm command →
      historyConflict ∉ e.outcome.reasons := by
  induction inputs using List.reverseRecOn with
  | nil => exact fun e he => nomatch he
  | append_singleton inputs input ih =>
    rw [List.map_append, List.nodup_append] at hevents
    rw [trace_append_singleton]
    intro e he command hcommand
    rcases List.mem_append.mp he with he | he
    · exact ih hevents.1 e he command hcommand
    · obtain rfl := List.mem_singleton.mp he
      dsimp only at hcommand ⊢
      rw [authorizePortfolio, hcommand]
      have hid : portfolioIdFor input.command = command.proposal.portfolioId := by
        rw [hcommand]
        rfl
      have hcurrent := (authorizedLineages_trace inputs hevents.1).current_eq
        command.proposal.portfolioId
      rw [currentAuthorization, ← portfolioAuthorizations_lineage,
        ← currentAuthorization] at hcurrent
      exact historyConflict_not_mem_adjudicatePortfolio (hid ▸ rfl) hcurrent

/-- After any run of portfolio commands, each adjudicated with the full prior lineage, the
authorizations of every portfolio are one forward lineage: they succeed one another, take effect
in order and share no identity. The last one is the current one, no confirmation was denied for a
conflict of the history, two portfolios have no selected account in common, and at any instant one
authorization at most is allowed for new exposure. -/
theorem portfolioRun_forwardLineage (inputs : List AuthorizationInput)
    (hevents : (inputs.map (·.eventId)).Nodup) : let run := trace authorizePortfolio inputs
    let history := outcomes run
    (∀ portfolioId, ForwardLineage (portfolioAuthorizations history portfolioId) ∧
      currentAuthorization history portfolioId =
        .ok (portfolioAuthorizations history portfolioId).getLast?) ∧
    (∀ e ∈ run, ∀ command, e.input.command = .confirm command →
      historyConflict ∉ e.outcome.reasons) ∧
    (∀ p q, p ≠ q → ∀ a b, currentAuthorization history p = .ok (some a) →
      currentAuthorization history q = .ok (some b) →
      ∀ id ∈ a.proposal.snapshot.selectedAccountIds,
        id ∉ b.proposal.snapshot.selectedAccountIds) ∧
    ∀ portfolioId t a b, AllowedForNewExposure history portfolioId t a →
      AllowedForNewExposure history portfolioId t b → a = b := by
  intro run history
  have h : AuthorizedLineages history := authorizedLineages_trace inputs hevents
  refine ⟨fun portfolioId => ⟨h.lineage portfolioId, h.current_eq portfolioId⟩,
    historyConflict_unreachable inputs hevents, ?_, ?_⟩
  · intro p q hne a b ha hb id hid hmem
    rw [h.current_eq] at ha hb
    obtain ⟨hamem, rfl⟩ := mem_portfolioAuthorizations.mp
      (List.mem_of_getLast? (Except.ok.inj ha))
    obtain ⟨hbmem, rfl⟩ := mem_portfolioAuthorizations.mp
      (List.mem_of_getLast? (Except.ok.inj hb))
    exact h.accounts a hamem b hbmem hne id (a.proposal.snapshot.selected_subset id hid)
      (b.proposal.snapshot.selected_subset id hmem)
  · intro portfolioId t a b ha hb
    exact Option.some.inj ((h.allowed_eq ha).symm.trans (h.allowed_eq hb))

namespace SampleAuthorization

def snapshot (snapshotId : String) (cutoffAt : Instant) : PortfolioSnapshot :=
  SampleProposals.snapshot snapshotId cutoffAt

def budget (versionId : String) (effectiveAt : Instant) : PersonalRiskBudget :=
  SampleProposals.budget versionId "policy" effectiveAt

def first : PortfolioConfirmationCommand where
  proposal :=
    { portfolioId := "P"
      snapshot := snapshot "S1" 0
      riskBudget := budget "B1" 0
      effectiveAt_eq := rfl
      cashObligations := []
      obligationIds_nodup := List.nodup_nil
      target_mem := nofun }
  confirmation := { confirmationId := "C1", confirmedAt := 0 }
  confirmedAt_le := le_rfl
  cutoffAt_le := le_rfl
  registeredAt_le := fun _ h => absurd h (Option.not_mem_none _)
  activation_after := fun h => absurd rfl h

def second : PortfolioConfirmationCommand where
  proposal :=
    { portfolioId := "P"
      snapshot := snapshot "S2" 1
      activationSnapshot := some (snapshot "S3" 3)
      riskBudget := budget "B2" 3
      effectiveAt_eq := rfl
      cashObligations := []
      obligationIds_nodup := List.nodup_nil
      cutoff_lt_activation := fun _ h => Option.some.inj h ▸ (by decide : (1 : ℤ) < 3)
      activation_ne := fun _ h => Option.some.inj h ▸ (by decide : "S3" ≠ "S2")
      activation_scope := fun _ h => Option.some.inj h ▸ ⟨rfl, rfl⟩
      target_mem := nofun }
  previousAuthorizationId := some "E1"
  confirmation := { confirmationId := "C2", confirmedAt := 2 }
  confirmedAt_le := (by decide : (2 : ℤ) ≤ 3)
  cutoffAt_le := (by decide : (1 : ℤ) ≤ 2)
  registeredAt_le := fun _ h => absurd h (Option.not_mem_none _)
  activation_after := fun _ => ⟨snapshot "S3" 3, rfl, (by decide : (2 : ℤ) < 3)⟩

def inputs : List AuthorizationInput :=
  [⟨.confirm first, "E1", 0, 0, ["A"], true, false, []⟩,
    ⟨.confirm second, "E2", 3, 3, ["A"], true, false, []⟩]

end SampleAuthorization

open SampleAuthorization in
/-- The second confirmation succeeds the first. -/
theorem sample_forwardLineage : let history := outcomes (trace authorizePortfolio inputs)
    (authorizations history).map (·.authorizationId) = ["E1", "E2"] ∧
      ForwardLineage (portfolioAuthorizations history "P") :=
  ⟨by decide +kernel, ((portfolioRun_forwardLineage inputs (by decide)).1 "P").1⟩

end StockProfiler.Portfolio
