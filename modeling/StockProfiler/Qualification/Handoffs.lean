import Mathlib.Data.List.Pairwise
import StockProfiler.Qualification.Requalifications

/-!
# Handoffs between versions

Nodes are registered once, tasks are frozen once and used only as they were
approved. The activations of a scope supersede one another over all kinds of nodes,
so the one that applies to a node is found only if those that apply are adjacent.
-/

namespace StockProfiler.Qualification

variable {qualification : Option QualificationRecord} {context : AdjudicationContext}

/-- Whether an outcome leaves the nodes, the activations and the tasks as they are. -/
structure GovernanceOutcome.KeepsVersions (outcome : GovernanceOutcome) : Prop where
  taskNode : outcome.taskNode = none
  activation : outcome.activation = none
  task : outcome.task = none

/-- How a command of the host adds to the nodes, the activations and the tasks of its scope. -/
inductive VersionChange (context : AdjudicationContext) : GovernanceOutcome → Prop where
  | kept {outcome : GovernanceOutcome} (h : outcome.KeepsVersions) : VersionChange context outcome
  | registered {outcome : GovernanceOutcome} {scope : QualificationScope} {node : LegalTaskNode}
      (hvalid : NodeIsRegistrable (scopedNodes context.history scope) node context.now)
      (htaskNode : outcome.taskNode = some ⟨context.eventId, scope, node, context.now⟩)
      (hactivation : outcome.activation = none) (htask : outcome.task = none) :
      VersionChange context outcome
  | activated {outcome : GovernanceOutcome} {activation : VersionActivation}
      {current : Option VersionActivation}
      (hcurrent : currentActivation (scopedActivations context.history activation.scope) =
        .ok current)
      (hid : activation.decisionId = context.eventId)
      (hprevious : activation.previousActivationId = current.map (·.decisionId))
      (htaskNode : outcome.taskNode = none) (hactivation : outcome.activation = some activation)
      (htask : outcome.task = none) : VersionChange context outcome
  | frozen {outcome : GovernanceOutcome} {task : FrozenTask} {registered : RegisteredTaskNode}
      (hregistered : registered ∈ scopedNodes context.history task.scope)
      (hnode : task.node = registered.node)
      (hfree : ¬∃ item ∈ scopedTasks context.history task.scope,
        item.node.nodeId = task.node.nodeId)
      (htaskNode : outcome.taskNode = none) (hactivation : outcome.activation = none)
      (htask : outcome.task = some task) : VersionChange context outcome

theorem keepsVersions_denied (reason : String) : (denied reason).KeepsVersions := ⟨rfl, rfl, rfl⟩

theorem keepsVersions_of_carryOut {command : QualificationCommand}
    {previous : Option QualificationRecord} {outcome : GovernanceOutcome}
    (h : carryOut context command previous = .ok outcome) : outcome.KeepsVersions := by
  rcases carryOut_cases h with ⟨_, _, _, rfl⟩ | rfl | rfl
  · exact ⟨rfl, rfl, rfl⟩
  · unfold recordAlertReplay
    split
    · exact keepsVersions_denied _
    · split
      · exact keepsVersions_denied _
      · split
        · exact ⟨rfl, rfl, rfl⟩
        · exact keepsVersions_denied _
  · unfold registerRequalificationApplication
    split
    · exact keepsVersions_denied _
    · split
      · exact ⟨rfl, rfl, rfl⟩
      · exact keepsVersions_denied _

theorem versionChange_registerTaskNode (command : RegisterTaskNodeCommand) :
    VersionChange context (registerTaskNode context command) := by
  unfold registerTaskNode
  split
  · rename_i hvalid
    exact .registered hvalid rfl rfl rfl
  · exact .kept (keepsVersions_denied _)

theorem versionChange_of_activateVersion {command : ActivateVersionCommand}
    {outcome : GovernanceOutcome}
    (h : activateVersion context command qualification = .ok outcome) :
    VersionChange context outcome := by
  unfold activateVersion at h
  obtain ⟨current, hcurrent, h⟩ := bind_eq_ok.mp h
  have hdenied : ∀ reason, (.ok (denied reason) : Except String _) = .ok outcome →
      VersionChange context outcome :=
    fun reason heq => Except.ok.inj heq ▸ .kept (keepsVersions_denied reason)
  split at h
  · exact hdenied _ h
  · split at h
    · exact hdenied _ h
    · rename_i hprerequisites
      split at h
      · exact hdenied _ h
      · split at h
        · exact hdenied _ h
        · split at h
          · exact hdenied _ h
          · cases h
            exact .activated hcurrent rfl (not_not.mp hprerequisites).1 rfl rfl rfl

/-- A task is frozen at a registered node that no other task was frozen at. -/
theorem versionChange_of_freezeTask {command : FreezeTaskCommand} {outcome : GovernanceOutcome}
    (h : freezeTask context command qualification = .ok outcome) :
    VersionChange context outcome := by
  unfold freezeTask at h
  dsimp only at h
  split at h
  · cases h
    exact .kept (keepsVersions_denied _)
  · rename_i registered hregistered
    split at h
    · cases h
      exact .kept (keepsVersions_denied _)
    · rename_i hfree
      obtain ⟨active, -, h⟩ := bind_eq_ok.mp h
      cases h
      exact .frozen (List.mem_of_find?_eq_some hregistered) rfl (not_not.mp hfree).1 rfl rfl rfl

theorem keepsVersions_useTask (command : UseTaskCommand)
    (qualification : Option QualificationRecord) :
    (useTask context command qualification).KeepsVersions := by
  unfold useTask
  split
  · exact keepsVersions_denied _
  · dsimp only
    split
    · exact ⟨rfl, rfl, rfl⟩
    · exact ⟨rfl, rfl, rfl⟩

/-- Every command of the host adds in one of these ways. -/
theorem versionChange_of_adjudicateGovernance {command : GovernanceCommand} {met : Bool}
    {outcome : GovernanceOutcome} (h : adjudicateGovernance context command met = .ok outcome) :
    VersionChange context outcome := by
  obtain ⟨binding, inner, rfl, hinner⟩ := adjudicated_of_governance h
  have hchange : VersionChange context inner := by
    rcases hinner with ⟨reason, rfl⟩ | hinner
    · exact .kept (keepsVersions_denied reason)
    · cases command with
      | qualification command =>
        rcases carried_of_adjudicate hinner with ⟨reason, rfl⟩ | ⟨_, -, hcarried⟩
        · exact .kept (keepsVersions_denied reason)
        · exact .kept (keepsVersions_of_carryOut hcarried)
      | registerTaskNode command =>
        exact Except.ok.inj hinner ▸ versionChange_registerTaskNode command
      | activateVersion command =>
        obtain ⟨_, -, hinner⟩ := bind_eq_ok.mp hinner
        exact versionChange_of_activateVersion hinner
      | freezeTask command =>
        obtain ⟨_, -, hinner⟩ := bind_eq_ok.mp hinner
        exact versionChange_of_freezeTask hinner
      | useTask command =>
        obtain ⟨qualification, -, hinner⟩ := bind_eq_ok.mp hinner
        exact Except.ok.inj hinner ▸ .kept (keepsVersions_useTask command qualification)
  cases hchange with
  | kept h => exact .kept ⟨h.taskNode, h.activation, h.task⟩
  | registered hvalid htaskNode hactivation htask =>
    exact .registered hvalid htaskNode hactivation htask
  | activated hcurrent hid hprevious htaskNode hactivation htask =>
    exact .activated hcurrent hid hprevious htaskNode hactivation htask
  | frozen hregistered hnode hfree htaskNode hactivation htask =>
    exact .frozen hregistered hnode hfree htaskNode hactivation htask

/-- Whether two registered nodes share no identity. -/
def RegisteredTaskNode.Apart (a b : RegisteredTaskNode) : Prop :=
  a.node.nodeId ≠ b.node.nodeId ∧ a.node.taskIdentity ≠ b.node.taskIdentity

instance : Std.Symm RegisteredTaskNode.Apart := ⟨fun _ _ h => ⟨h.1.symm, h.2.symm⟩⟩

/-- What holds of the nodes, the activations and the tasks of a scope after some events. -/
structure VersionsFit (eventIds : List String) (nodes : List RegisteredTaskNode)
    (activations : List VersionActivation) (tasks : List FrozenTask) : Prop where
  distinct : nodes.Pairwise RegisteredTaskNode.Apart
  succession : Succession (·.decisionId) (·.previousActivationId) activations
  recorded : ∀ activation ∈ activations, activation.decisionId ∈ eventIds
  registered : ∀ task ∈ tasks, ∃ registered ∈ nodes, task.node = registered.node
  frozen : (tasks.map (·.node.nodeId)).Nodup

theorem versionsFit_nil : VersionsFit [] [] [] [] where
  distinct := List.Pairwise.nil
  succession := succession_nil
  recorded _ h := nomatch h
  registered _ h := nomatch h
  frozen := List.nodup_nil

section Additions

variable {eventIds : List String} {nodes : List RegisteredTaskNode}
  {activations : List VersionActivation} {tasks : List FrozenTask}

variable (h : VersionsFit eventIds nodes activations tasks)

include h in
theorem VersionsFit.mono {more : List String}
    (hsub : eventIds ⊆ more) : VersionsFit more nodes activations tasks :=
  { h with recorded := fun activation hmem => hsub (h.recorded activation hmem) }

include h in
theorem VersionsFit.addNode {registered : RegisteredTaskNode} {now : Instant}
    (hvalid : NodeIsRegistrable nodes registered.node now) :
    VersionsFit eventIds (nodes ++ [registered]) activations tasks := by
  refine { h with distinct := ?_, registered := fun task htask => ?_ }
  · refine List.pairwise_append.mpr ⟨h.distinct, List.pairwise_singleton _ _, fun a ha b hb => ?_⟩
    obtain ⟨-, -, -, hnew⟩ := hvalid
    rw [List.mem_singleton.mp hb]
    exact ⟨fun hid => hnew ⟨a, ha, .inl hid⟩, fun hid => hnew ⟨a, ha, .inr hid⟩⟩
  · obtain ⟨found, hfound, hnode⟩ := h.registered task htask
    exact ⟨found, List.mem_append_left _ hfound, hnode⟩

/-- The only current activation of a succession is its last one. -/
theorem currentActivation_eq (h : Succession (·.decisionId) (·.previousActivationId) activations) :
    currentActivation activations = .ok activations.getLast? := by
  unfold currentActivation
  rw [h.heads_eq]
  cases activations.getLast? <;> rfl

include h in
/-- A new activation that supersedes the current one can be added. -/
theorem VersionsFit.addActivation {activation : VersionActivation}
    {current : Option VersionActivation} (hcurrent : currentActivation activations = .ok current)
    (hprevious : activation.previousActivationId = current.map (·.decisionId))
    (hnew : activation.decisionId ∉ eventIds) :
    VersionsFit (eventIds ++ [activation.decisionId]) nodes (activations ++ [activation])
      tasks := by
  refine { h with succession := h.succession.snoc ?_ ?_, recorded := fun other hother => ?_ }
  · intro hmem
    obtain ⟨other, hother, hsame⟩ := List.mem_map.mp hmem
    exact hnew (hsame ▸ h.recorded other hother)
  · rw [currentActivation_eq h.succession] at hcurrent
    rw [hprevious, ← Except.ok.inj hcurrent]
  · rcases List.mem_append.mp hother with hold | hlast
    · exact List.mem_append_left _ (h.recorded other hold)
    · rw [List.mem_singleton.mp hlast]
      exact List.mem_append_right _ (List.mem_singleton_self _)

include h in
/-- A task of a registered node that no other task was frozen at can be added. -/
theorem VersionsFit.addTask {task : FrozenTask} {registered : RegisteredTaskNode}
    (hregistered : registered ∈ nodes) (hnode : task.node = registered.node)
    (hfree : ¬∃ item ∈ tasks, item.node.nodeId = task.node.nodeId) :
    VersionsFit eventIds nodes activations (tasks ++ [task]) := by
  refine { h with registered := fun other hother => ?_, frozen := ?_ }
  · rcases List.mem_append.mp hother with hold | hlast
    · exact h.registered other hold
    · rw [List.mem_singleton.mp hlast]
      exact ⟨registered, hregistered, hnode⟩
  · rw [List.map_append, List.map_singleton]
    refine h.frozen.append (List.nodup_singleton _) (List.disjoint_singleton.mpr fun hmem => ?_)
    obtain ⟨item, hitem, hsame⟩ := List.mem_map.mp hmem
    exact hfree ⟨item, hitem, hsame⟩

include h in
theorem VersionsFit.identities_nodup : (tasks.map (·.node.taskIdentity)).Nodup := by
  refine (List.nodup_map_iff_inj_on (List.Nodup.of_map _ h.frozen)).mpr fun a ha b hb hsame => ?_
  obtain ⟨nodeA, hnodeA, hA⟩ := h.registered a ha
  obtain ⟨nodeB, hnodeB, hB⟩ := h.registered b hb
  have hnode : nodeA = nodeB := by
    by_contra hne
    have happart := h.distinct.forall hnodeA hnodeB hne
    exact happart.2 (hA ▸ hB ▸ hsame)
  refine List.inj_on_of_nodup_map h.frozen ha hb ?_
  rw [hA, hB, hnode]

end Additions

/-- The outcomes of a run. -/
def governanceHistory (run : List GovernanceStep) : List GovernanceOutcome :=
  (outcomes run).map (·.outcome)

theorem scoped_snoc {β : Type} (part : GovernanceOutcome → Option β) (inScope : β → Bool)
    (history : List GovernanceOutcome) (outcome : GovernanceOutcome) :
    ((history ++ [outcome]).filterMap part).filter inScope =
      (history.filterMap part).filter inScope ++ ((part outcome).filter inScope).toList := by
  rw [List.filterMap_append, List.filter_append]
  cases hpart : part outcome with
  | none => simp [hpart]
  | some item => cases hscope : inScope item <;> simp [hpart, hscope, Option.filter]

theorem scoped_congr {β : Type} {part : GovernanceOutcome → Option β}
    (scopeOf : β → QualificationScope) {scope other : QualificationScope}
    (h : scope.SameScopeAs other) (history : List GovernanceOutcome) :
    (history.filterMap part).filter (fun item => (scopeOf item).SameScopeAs scope) =
      (history.filterMap part).filter (fun item => (scopeOf item).SameScopeAs other) := by
  refine List.filter_congr fun item _ => ?_
  exact decide_eq_decide.mpr ⟨fun hitem => hitem.trans h, fun hitem => hitem.trans h.symm⟩

section Scopes

variable (history : List GovernanceOutcome) (outcome : GovernanceOutcome)
  (scope : QualificationScope)

theorem scopedNodes_snoc : scopedNodes (history ++ [outcome]) scope = scopedNodes history scope ++
    (outcome.taskNode.filter (·.scope.SameScopeAs scope)).toList :=
  scoped_snoc _ _ history outcome

theorem scopedTasks_snoc : scopedTasks (history ++ [outcome]) scope = scopedTasks history scope ++
    (outcome.task.filter (·.scope.SameScopeAs scope)).toList :=
  scoped_snoc _ _ history outcome

theorem scopedActivations_snoc : scopedActivations (history ++ [outcome]) scope =
    scopedActivations history scope ++
      (outcome.activation.filter (·.scope.SameScopeAs scope)).toList :=
  scoped_snoc _ _ history outcome

variable {scope} {other : QualificationScope} (h : scope.SameScopeAs other)
include h

theorem scopedNodes_congr : scopedNodes history scope = scopedNodes history other :=
  scoped_congr RegisteredTaskNode.scope h history

theorem scopedTasks_congr : scopedTasks history scope = scopedTasks history other :=
  scoped_congr FrozenTask.scope h history

theorem scopedActivations_congr :
    scopedActivations history scope = scopedActivations history other :=
  scoped_congr VersionActivation.scope h history

end Scopes

/-- One more step keeps what holds of the versions of a scope. -/
theorem VersionChange.versionsFit {outcome : GovernanceOutcome} {scope : QualificationScope}
    {eventIds : List String} (h : VersionChange context outcome) (hnew : context.eventId ∉ eventIds)
    (hfit : VersionsFit eventIds (scopedNodes context.history scope)
      (scopedActivations context.history scope) (scopedTasks context.history scope)) :
    VersionsFit (eventIds ++ [context.eventId]) (scopedNodes (context.history ++ [outcome]) scope)
      (scopedActivations (context.history ++ [outcome]) scope)
      (scopedTasks (context.history ++ [outcome]) scope) := by
  have hmono := hfit.mono (List.subset_append_left eventIds [context.eventId])
  rw [scopedNodes_snoc, scopedActivations_snoc, scopedTasks_snoc]
  cases h with
  | kept h =>
    rw [h.taskNode, h.activation, h.task]
    simpa using hmono
  | @registered nodeScope node hvalid htaskNode hactivation htask =>
    rw [htaskNode, hactivation, htask]
    by_cases hscope : nodeScope.SameScopeAs scope
    · rw [scopedNodes_congr _ hscope] at hvalid
      have hadded := @VersionsFit.addNode _ _ _ _ hmono
        ⟨context.eventId, nodeScope, node, context.now⟩ _ hvalid
      simpa [hscope, Option.filter] using hadded
    · simpa [hscope, Option.filter] using hmono
  | @activated activation current hcurrent hid hprevious htaskNode hactivation htask =>
    rw [htaskNode, hactivation, htask]
    by_cases hscope : activation.scope.SameScopeAs scope
    · rw [scopedActivations_congr _ hscope] at hcurrent
      have hadded := hfit.addActivation hcurrent hprevious (hid ▸ hnew)
      rw [hid] at hadded
      simpa [hscope, Option.filter] using hadded
    · simpa [hscope, Option.filter] using hmono
  | @frozen task registered hregistered hnode hfree htaskNode hactivation htask =>
    rw [htaskNode, hactivation, htask]
    by_cases hscope : task.scope.SameScopeAs scope
    · rw [scopedNodes_congr _ hscope] at hregistered
      rw [scopedTasks_congr _ hscope] at hfree
      have hadded := hmono.addTask hregistered hnode hfree
      simpa [hscope, Option.filter] using hadded
    · simpa [hscope, Option.filter] using hmono

/-- What holds of the versions of a scope after a run. -/
theorem versionsFit_of_run {run : List GovernanceStep} (hrun : GovernanceRun run)
    (scope : QualificationScope) :
    VersionsFit ((outcomes run).map (·.eventId)) (scopedNodes (governanceHistory run) scope)
      (scopedActivations (governanceHistory run) scope)
      (scopedTasks (governanceHistory run) scope) := by
  induction hrun with
  | nil => exact versionsFit_nil
  | @snoc run input fact hrun hcommit ih =>
    obtain ⟨hnew, hid, hadjudicated⟩ := commitGovernance_inv hcommit
    have hstep := (versionChange_of_adjudicateGovernance hadjudicated).versionsFit hnew ih
    unfold governanceHistory
    rw [outcomes_append, outcomes_singleton, List.map_append, List.map_append, List.map_singleton,
      List.map_singleton, hid]
    exact hstep

/-- Whether a task was approved under the version of a use of it, whose window is open. -/
def FrozenTask.Allows (task : FrozenTask) (command : UseTaskCommand) (cutoff now : Instant) :
    Prop :=
  task.node.taskIdentity = command.taskIdentity ∧ task.version = command.version ∧
    task.freezeStatus = .approved ∧ task.node.knowledgeCutoff ≤ cutoff ∧ cutoff ≤ now ∧
    now ≤ task.node.validUntil

/-- A use is only approved of a frozen task that allows it. -/
theorem allows_of_useTask {command : UseTaskCommand}
    (h : (useTask context command qualification).disposition = .approved) :
    ∃ task ∈ scopedTasks context.history command.scope,
      task.Allows command context.cutoff context.now := by
  unfold useTask at h
  split at h
  · cases h
  · rename_i task htask
    have hidentity : task.node.taskIdentity = command.taskIdentity := by
      simpa using List.find?_some htask
    refine ⟨task, List.mem_of_find?_eq_some htask, hidentity, ?_⟩
    dsimp only at h
    split at h
    · rename_i hreasons
      simp [usageOutcome, hreasons] at h
    · rename_i hreasons
      rw [not_not] at hreasons
      unfold usageReasons at hreasons
      split at hreasons
      · cases hreasons
      · rename_i hversion
        split at hreasons
        · cases hreasons
        · rename_i hstatus
          split at hreasons
          · cases hreasons
          · rename_i hwindow
            obtain ⟨hcutoff, hnow, hvalid⟩ := not_not.mp hwindow
            exact ⟨not_not.mp hversion, not_not.mp hstatus, hcutoff, hnow, hvalid⟩

/-- A use is only approved by the host of a frozen task that allows it. -/
theorem allows_of_adjudicateGovernance {command : UseTaskCommand} {met : Bool}
    {outcome : GovernanceOutcome}
    (h : adjudicateGovernance context (.useTask command) met = .ok outcome)
    (happroved : outcome.disposition = .approved) :
    ∃ task ∈ scopedTasks context.history command.scope,
      task.Allows command context.cutoff context.now := by
  obtain ⟨binding, inner, rfl, ⟨reason, rfl⟩ | hinner⟩ := adjudicated_of_governance h
  · exact nomatch happroved
  · obtain ⟨qualification, -, hinner⟩ := bind_eq_ok.mp hinner
    rw [← Except.ok.inj hinner] at happroved
    exact allows_of_useTask happroved

/-- A lookup among the activations of a succession finds the last one that applies exactly when
those that apply are adjacent. -/
theorem applicableActivation_eq_iff {activations : List VersionActivation}
    (h : Succession (·.decisionId) (·.previousActivationId) activations) (kind : TaskNodeKind)
    (scheduledAt : Instant) :
    applicableActivation activations kind scheduledAt =
        .ok (activations.filter (·.AppliesTo kind scheduledAt)).getLast? ↔
      Contiguous (·.AppliesTo kind scheduledAt) activations := by
  rw [← h.heads_filter_eq_iff]
  unfold applicableActivation currentActivation
  generalize activations.filter (·.AppliesTo kind scheduledAt) = applicable
  generalize heads (·.decisionId) (·.previousActivationId) applicable = found
  cases hlast : applicable.getLast? with
  | none => rcases found with _ | ⟨head, _ | ⟨other, rest⟩⟩ <;> simp
  | some last => rcases found with _ | ⟨head, _ | ⟨other, rest⟩⟩ <;> simp

/-- What is expected of the versions of a scope after a run: a node has one applicable activation,
the last one recorded, nodes and tasks are frozen once, and tasks are used as they were approved. -/
structure VersionsSound (run : List GovernanceStep) (scope : QualificationScope) : Prop where
  applicable : ∀ registered ∈ scopedNodes (governanceHistory run) scope,
    applicableActivation (scopedActivations (governanceHistory run) scope) registered.node.kind
        registered.node.scheduledAt =
      .ok ((scopedActivations (governanceHistory run) scope).filter
        (·.AppliesTo registered.node.kind registered.node.scheduledAt)).getLast?
  nodesOnce : ((scopedTasks (governanceHistory run) scope).map (·.node.nodeId)).Nodup
  tasksOnce : ((scopedTasks (governanceHistory run) scope).map (·.node.taskIdentity)).Nodup
  uses : ∀ step ∈ run, ∀ command, step.input.command = .useTask command →
    command.scope.SameScopeAs scope → step.outcome.outcome.disposition = .approved →
      ∃ task ∈ scopedTasks (historyOf step) scope,
        task.Allows command step.input.cutoff step.input.now

/-- The versions of a scope are sound after a run exactly when, for every registered node, the
activations that apply to it were recorded without another one between them. -/
theorem versionsSound_iff {run : List GovernanceStep} (hrun : GovernanceRun run)
    (scope : QualificationScope) : VersionsSound run scope ↔
      ∀ registered ∈ scopedNodes (governanceHistory run) scope,
        Contiguous (·.AppliesTo registered.node.kind registered.node.scheduledAt)
          (scopedActivations (governanceHistory run) scope) := by
  have hfit := versionsFit_of_run hrun scope
  constructor
  · intro h registered hregistered
    exact (applicableActivation_eq_iff hfit.succession _ _).mp (h.applicable registered hregistered)
  · intro h
    refine ⟨fun registered hregistered => ?_, hfit.frozen, hfit.identities_nodup, ?_⟩
    · exact (applicableActivation_eq_iff hfit.succession _ _).mpr (h registered hregistered)
    · intro step hstep command hcommand hscope happroved
      obtain ⟨-, -, hadjudicated⟩ := commitGovernance_inv (hrun.step_of_mem hstep)
      rw [hcommand] at hadjudicated
      have hallowed := allows_of_adjudicateGovernance hadjudicated happroved
      rwa [scopedTasks_congr _ hscope] at hallowed

namespace SampleQualification

def otherVersion : CapabilityVersion where
  versionId := "version-2"
  policyVersion := "policy-2"
  implementation := implementation
  qualificationPolicy :=
    some { policy with policyVersion := "policy-2", evaluationMaxAgeMonths := 7 }

def grantingVersion (eventId : String) (granted : CapabilityVersion) : GovernanceInput :=
  input eventId
    { command .grant none { evidence eventId .qualificationPass (day 0) with version := granted }
      with version := granted }

def versionInput (eventId : String) (t : Instant) (command : GovernanceCommand) : GovernanceInput :=
  { digests := digests, eventId := eventId, now := t, cutoff := t, command := command }

def registering (nodeId : String) (kind : TaskNodeKind) (t : Instant) : GovernanceInput :=
  versionInput nodeId (day 0) (.registerTaskNode ⟨scope,
    { nodeId := nodeId, taskIdentity := nodeId, kind := kind, scheduledAt := t,
      knowledgeCutoff := t, validUntil := t + day 1 }⟩)

def activating (eventId : String) (activated : CapabilityVersion)
    (current : Option (CapabilityVersion × String)) (granted nodeId : String) : GovernanceInput :=
  versionInput eventId (day 1) (.activateVersion
    { scope := scope
      version := activated
      previousVersion := current.map (·.1)
      previousActivationId := current.map (·.2)
      qualificationDecisionId := granted
      firstNodeId := nodeId })

/-- Two versions that are activated one after the other for nodes of two kinds. -/
def twoKinds : List GovernanceInput :=
  [grantingVersion "grant-1" version, grantingVersion "grant-2" otherVersion,
    registering "monthly-1" .monthly (day 10), registering "daily-1" .daily (day 12),
    activating "activation-1" version none "grant-1" "monthly-1",
    activating "activation-2" otherVersion (some (version, "activation-1")) "grant-2" "daily-1"]

/-- The versions of the sample scope are sound after two activations for different kinds. -/
theorem sample_versionsSound : (scopedActivations (governanceHistory (runOf twoKinds)) scope).map
      (·.decisionId) = ["activation-1", "activation-2"] ∧
    VersionsSound (runOf twoKinds) scope :=
  ⟨by decide +kernel,
    (versionsSound_iff (governanceRun_runOf twoKinds) scope).mpr (by decide +kernel)⟩

/-- The first version activated once more for nodes of its kind. -/
def interleavedKinds : List GovernanceInput :=
  twoKinds ++ [activating "activation-3" version (some (otherVersion, "activation-2")) "grant-1"
    "monthly-1"]

/-- An activation for nodes of another kind between two leaves no applicable one. -/
theorem sample_conflict : ∃ run, GovernanceRun run ∧
    (∃ registered ∈ scopedNodes (governanceHistory run) scope,
      applicableActivation (scopedActivations (governanceHistory run) scope) registered.node.kind
          registered.node.scheduledAt =
        .error "version handoff history has conflicting revisions") ∧
    ¬VersionsSound run scope := by
  have hconflict : ∃ registered ∈ scopedNodes (governanceHistory (runOf interleavedKinds)) scope,
      applicableActivation (scopedActivations (governanceHistory (runOf interleavedKinds)) scope)
          registered.node.kind registered.node.scheduledAt =
        .error "version handoff history has conflicting revisions" := by decide +kernel
  refine ⟨_, governanceRun_runOf interleavedKinds, hconflict, fun hsound => ?_⟩
  obtain ⟨registered, hregistered, herror⟩ := hconflict
  exact nomatch herror.symm.trans (hsound.applicable registered hregistered)

end SampleQualification

end StockProfiler.Qualification
