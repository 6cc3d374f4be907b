import Mathlib.Data.String.Basic
import StockProfiler.Qualification.Service

/-!
# Version handoffs

Explicit forward-only version bindings for original task nodes. A version is
activated from a registered node on, a task is frozen under the activation that
applies to its node, and a frozen task keeps its version for good.
-/

namespace StockProfiler.Qualification

/-- The task nodes that a history registered in a scope. -/
def scopedNodes (history : List GovernanceOutcome) (scope : QualificationScope) :
    List RegisteredTaskNode :=
  (history.filterMap (·.taskNode)).filter (·.scope.SameScopeAs scope)

/-- The tasks that a history froze in a scope. -/
def scopedTasks (history : List GovernanceOutcome) (scope : QualificationScope) :
    List FrozenTask :=
  (history.filterMap (·.task)).filter (·.scope.SameScopeAs scope)

/-- The activations that a history saved in a scope. -/
def scopedActivations (history : List GovernanceOutcome) (scope : QualificationScope) :
    List VersionActivation :=
  (history.filterMap (·.activation)).filter (·.scope.SameScopeAs scope)

/-- The only activation that no other one supersedes. -/
def currentActivation (activations : List VersionActivation) :
    Except String (Option VersionActivation) :=
  match heads (·.decisionId) (·.previousActivationId) activations with
  | [] => .ok none
  | [head] => .ok (some head)
  | _ => .error "version handoff history has conflicting revisions"

/-- Whether an activation starts at a node of a kind no later than an instant. -/
def VersionActivation.AppliesTo (item : VersionActivation) (kind : TaskNodeKind)
    (scheduledAt : Instant) : Prop :=
  item.firstNode.kind = kind ∧ item.firstNode.scheduledAt ≤ scheduledAt

instance (item : VersionActivation) (kind : TaskNodeKind) (scheduledAt : Instant) :
    Decidable (item.AppliesTo kind scheduledAt) :=
  inferInstanceAs (Decidable (_ ∧ _))

/-- The activation that applies to a node. -/
def applicableActivation (activations : List VersionActivation) (kind : TaskNodeKind)
    (scheduledAt : Instant) : Except String (Option VersionActivation) :=
  currentActivation (activations.filter (·.AppliesTo kind scheduledAt))

/-- Whether a record authorizes statistical use now. -/
def Qualified (record : Option QualificationRecord) (cutoff now : Instant) : Prop :=
  ∃ current ∈ record, current.status ∈ [.valid, .atRisk] ∧ current.authorizationId ≠ none ∧
    current.expiryBasis ≠ none ∧ QualificationIsCurrent current now ∧
    current.evidenceAvailableBy (min cutoff now)

instance (record : Option QualificationRecord) (cutoff now : Instant) :
    Decidable (Qualified record cutoff now) :=
  inferInstanceAs (Decidable (∃ current ∈ record, current.status ∈ [.valid, .atRisk] ∧
    current.authorizationId ≠ none ∧ current.expiryBasis ≠ none ∧
    QualificationIsCurrent current now ∧ current.evidenceAvailableBy (min cutoff now)))

/-- Whether a node can be registered: it lies ahead, its window is ordered and its identities
are new. -/
def NodeIsRegistrable (nodes : List RegisteredTaskNode) (proposed : LegalTaskNode)
    (now : Instant) : Prop :=
  now < proposed.scheduledAt ∧ proposed.knowledgeCutoff ≤ proposed.scheduledAt ∧
    proposed.scheduledAt < proposed.validUntil ∧
    ¬∃ item ∈ nodes, item.node.nodeId = proposed.nodeId ∨
      item.node.taskIdentity = proposed.taskIdentity

instance (nodes : List RegisteredTaskNode) (proposed : LegalTaskNode) (now : Instant) :
    Decidable (NodeIsRegistrable nodes proposed now) :=
  inferInstanceAs (Decidable (_ ∧ _))

variable (context : AdjudicationContext)

/-- Register a task node. -/
def registerTaskNode (command : RegisterTaskNodeCommand) : GovernanceOutcome :=
  if NodeIsRegistrable (scopedNodes context.history command.scope) command.node context.now then
    { disposition := .approved
      reasons := ["TASK_NODE_REGISTERED"]
      taskNode := some
        { decisionId := context.eventId
          scope := command.scope
          node := command.node
          registeredAt := context.now } }
  else denied "TASK_NODE_REGISTRATION_INVALID"

/-- The record that a use of a task suspends because it has expired. -/
def expiredByUse (qualification : QualificationRecord) : Option QualificationRecord :=
  let restricted := restrictExpiredQualification qualification context.now
  if restricted = qualification then none
  else some { restricted with
    decisionId := context.eventId
    previousDecisionId := some qualification.decisionId
    recordedAt := context.now }

/-- Whether a command may ask for the use of a task at all. -/
def usageReasons (command : UseTaskCommand) (task : FrozenTask) : List String :=
  if task.version ≠ command.version then ["ORIGINAL_TASK_VERSION_REQUIRED"]
  else if task.freezeStatus ≠ .approved then ["ORIGINAL_TASK_WAS_NOT_APPROVED"]
  else if ¬(task.node.knowledgeCutoff ≤ context.cutoff ∧ context.cutoff ≤ context.now ∧
      context.now ≤ task.node.validUntil) then ["ORIGINAL_TASK_WINDOW_CLOSED"]
  else []

/-- The answer to a request to use a task. -/
def usageOutcome (task : FrozenTask) (changed qualification : Option QualificationRecord)
    (reasons : List String) : GovernanceOutcome where
  disposition := if reasons = [] then .approved else .denied
  reasons := if reasons = [] then ["ORIGINAL_TASK_STATISTICAL_USE_ALLOWED"] else reasons
  qualification := changed
  usage := some
    { allowed := reasons = []
      taskSnapshot := task
      qualificationSnapshot := qualification
      reasons
      checkedAt := context.now }

/-- Use a frozen task under the authority of its own version. -/
def useTask (command : UseTaskCommand) (qualification : Option QualificationRecord) :
    GovernanceOutcome :=
  match (scopedTasks context.history command.scope).find?
      (·.node.taskIdentity = command.taskIdentity) with
  | none => denied "FROZEN_TASK_REQUIRED"
  | some task =>
    let reasons := usageReasons context command task
    if reasons ≠ [] then usageOutcome context task none qualification reasons
    else
      let changed := qualification.bind (expiredByUse context)
      let current := changed <|> qualification
      usageOutcome context task changed current
        (if Qualified current context.cutoff context.now then []
        else ["CURRENT_SCOPED_QUALIFICATION_REQUIRED"])

/-- What an activation retains of a task. -/
def retainedTaskRelation (task : FrozenTask) : RetainedTaskRelation where
  taskIdentity := task.node.taskIdentity
  taskDecisionId := task.decisionId
  originalVersion := task.version
  nodeId := task.node.nodeId
  activationId := task.activationId
  qualificationDecisionId := task.qualificationSnapshot.map (·.decisionId)
  knowledgeCutoff := task.node.knowledgeCutoff
  scheduledAt := task.node.scheduledAt
  validUntil := task.node.validUntil
  retainedObjects := task.node.retainedObjects
  deterministicObligations := task.node.deterministicObligations

/-- The future nodes of a kind that no task was frozen at, by schedule. -/
def legalCandidates (nodes : List RegisteredTaskNode) (tasks : List FrozenTask)
    (kind : TaskNodeKind) (now : Instant) : List LegalTaskNode :=
  ((nodes.map (·.node)).filter fun node => node.kind = kind ∧ now < node.scheduledAt ∧
    node.nodeId ∉ tasks.map (·.node.nodeId)).insertionSort (·.scheduledAt ≤ ·.scheduledAt)

/-- Whether a command hands over from the current activation under a current authority. -/
def HandoffPrerequisites (command : ActivateVersionCommand) (current : Option VersionActivation)
    (qualification : Option QualificationRecord) : Prop :=
  command.previousActivationId = current.map (·.decisionId) ∧
    command.previousVersion = current.map (·.version) ∧
    Qualified qualification context.cutoff context.now ∧
    some command.qualificationDecisionId = qualification.map (·.decisionId)

instance (context : AdjudicationContext) (command : ActivateVersionCommand)
    (current : Option VersionActivation) (qualification : Option QualificationRecord) :
    Decidable (HandoffPrerequisites context command current qualification) :=
  inferInstanceAs (Decidable (_ ∧ _))

/-- The activation that a command saves. -/
def savedActivation (command : ActivateVersionCommand) (qualification : QualificationRecord)
    (firstNode : LegalTaskNode) (retained : List RetainedTaskRelation) : VersionActivation where
  decisionId := context.eventId
  scope := command.scope
  version := command.version
  previousVersion := command.previousVersion
  previousActivationId := command.previousActivationId
  qualificationSnapshot := qualification
  firstNode := firstNode
  retainedTaskIds := retained.map (·.taskIdentity)
  retainedTasks := retained
  recordedAt := context.now

/-- Activate a version from the next legal node of a kind on. -/
def activateVersion (command : ActivateVersionCommand)
    (qualification : Option QualificationRecord) : Except String GovernanceOutcome := do
  let nodes := scopedNodes context.history command.scope
  let tasks := scopedTasks context.history command.scope
  let current ← currentActivation (scopedActivations context.history command.scope)
  match qualification with
  | none => return denied "VERSION_HANDOFF_PREREQUISITES_NOT_MET"
  | some record =>
    if ¬HandoffPrerequisites context command current qualification then
      return denied "VERSION_HANDOFF_PREREQUISITES_NOT_MET"
    else match nodes.find? (·.node.nodeId = command.firstNodeId) with
      | none => return denied "REGISTERED_TASK_NODE_REQUIRED"
      | some requested =>
        match (legalCandidates nodes tasks requested.node.kind context.now).head? with
        | none => return denied "NEXT_LEGAL_TASK_NODE_REQUIRED"
        | some first =>
          if first.nodeId ≠ requested.node.nodeId ∨
              current.map (·.version) = some command.version then
            return denied "NEXT_LEGAL_TASK_NODE_REQUIRED"
          else
            let retained := (tasks.insertionSort
              (·.node.taskIdentity ≤ ·.node.taskIdentity)).map retainedTaskRelation
            return {
              disposition := .approved
              reasons := ["VERSION_HANDOFF_RECORDED"]
              activation := some (savedActivation context command record first retained) }

/-- Whether a task can be frozen at a node. -/
def NodeIsFreezable (tasks : List FrozenTask) (node : LegalTaskNode) : Prop :=
  (¬∃ item ∈ tasks, item.node.nodeId = node.nodeId) ∧ node.knowledgeCutoff = context.cutoff ∧
    node.scheduledAt ≤ context.now ∧ context.now ≤ node.validUntil

instance (context : AdjudicationContext) (tasks : List FrozenTask) (node : LegalTaskNode) :
    Decidable (NodeIsFreezable context tasks node) :=
  inferInstanceAs (Decidable (_ ∧ _))

/-- Why a task cannot be approved when it is frozen. -/
def freezeReasons (command : FreezeTaskCommand) (active : Option VersionActivation)
    (qualification : Option QualificationRecord) : List String :=
  if ¬∃ activation ∈ active, some activation.decisionId = command.activationId ∧
      activation.version = command.version then ["EXPLICIT_VERSION_ACTIVATION_REQUIRED"]
  else if ¬Qualified qualification context.cutoff context.now then
    ["CURRENT_SCOPED_QUALIFICATION_REQUIRED"]
  else []

/-- Freeze the task of a node under the activation that applies to it. -/
def freezeTask (command : FreezeTaskCommand) (qualification : Option QualificationRecord) :
    Except String GovernanceOutcome := do
  let tasks := scopedTasks context.history command.scope
  match (scopedNodes context.history command.scope).find? (·.node.nodeId = command.nodeId) with
  | none => return denied "TASK_FREEZE_NOT_ALLOWED"
  | some registered =>
    if ¬NodeIsFreezable context tasks registered.node then
      return denied "TASK_FREEZE_NOT_ALLOWED"
    else do
      let active ← applicableActivation (scopedActivations context.history command.scope)
        registered.node.kind registered.node.scheduledAt
      let reasons := freezeReasons context command active qualification
      return {
        disposition := if reasons = [] then .approved else .denied
        reasons := if reasons = [] then ["TASK_VERSION_FROZEN"] else reasons
        task := some
          { decisionId := context.eventId
            scope := command.scope
            version := command.version
            node := registered.node
            activationId := command.activationId
            qualificationSnapshot := qualification
            freezeStatus := if reasons = [] then .approved else .denied
            reasons
            frozenAt := context.now } }

end StockProfiler.Qualification
