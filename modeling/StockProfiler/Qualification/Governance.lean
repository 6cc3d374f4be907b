import StockProfiler.Qualification.Versions

/-!
# The governance host

Commands are dispatched to the adjudication of qualifications or of versions, and
every outcome binds the policy of its scope. What is committed is appended to the
history that the next command is adjudicated with.
-/

namespace StockProfiler.Qualification

/-- The scope and version of a command that names a version. -/
def GovernanceCommand.binding : GovernanceCommand → Option PolicyBinding
  | .qualification command => some ⟨command.scope, command.version⟩
  | .registerTaskNode _ => none
  | .activateVersion command => some ⟨command.scope, command.version⟩
  | .freezeTask command => some ⟨command.scope, command.version⟩
  | .useTask command => some ⟨command.scope, command.version⟩

/-- Adjudicate a command on nodes, tasks or versions. -/
def adjudicateVersions (context : AdjudicationContext) :
    GovernanceCommand → Except String GovernanceOutcome
  | .qualification command => adjudicate context command
  | .registerTaskNode command => return registerTaskNode context command
  | .activateVersion command => do
    let qualification ← currentQualification context.history command.scope command.version
    activateVersion context command qualification
  | .freezeTask command => do
    let qualification ← currentQualification context.history command.scope command.version
    freezeTask context command qualification
  | .useTask command => do
    let qualification ← currentQualification context.history command.scope command.version
    return useTask context command qualification

/-- Adjudicate a command of the host. -/
def adjudicateGovernance (context : AdjudicationContext) (command : GovernanceCommand)
    (businessPrerequisiteMet : Bool) : Except String GovernanceOutcome :=
  let conflicting := command.binding.filter fun binding =>
    PolicyIdentityConflicts binding.scope binding.version context.history
  let binding := command.binding.filter fun binding =>
    binding.version.policyError.isNone && conflicting.isNone
  if !businessPrerequisiteMet then
    return { denied "BUSINESS_PREREQUISITE_NOT_MET" with policyBinding := binding }
  else match command, conflicting with
    | .qualification _, some _ => return denied "QUALIFICATION_POLICY_IDENTITY_CONFLICT"
    | _, _ => do
      let outcome ← adjudicateVersions context command
      return { outcome with policyBinding := binding }

/-- A command with the circumstances in which it is committed. -/
structure GovernanceInput where
  digests : Digests
  eventId : String
  now : Instant
  cutoff : Instant
  command : GovernanceCommand
  businessPrerequisiteMet : Bool := true

/-- A committed outcome under its event. -/
structure GovernanceFact where
  eventId : String
  outcome : GovernanceOutcome

/-- What a command is adjudicated with after earlier facts. -/
def GovernanceInput.context (input : GovernanceInput) (before : List GovernanceFact) :
    AdjudicationContext where
  digests := input.digests
  eventId := input.eventId
  now := input.now
  cutoff := input.cutoff
  history := before.map (·.outcome)

/-- Commit the outcome of a command under a new event; a failed one commits nothing. -/
def commitGovernance (before : List GovernanceFact) (input : GovernanceInput) :
    Option GovernanceFact :=
  if input.eventId ∈ before.map (·.eventId) then none
  else match adjudicateGovernance (input.context before) input.command
      input.businessPrerequisiteMet with
    | .error _ => none
    | .ok outcome => some ⟨input.eventId, outcome⟩

end StockProfiler.Qualification
