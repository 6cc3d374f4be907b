import StockProfiler.Core.History
import StockProfiler.Delivery.CandidateContracts

/-!
# Candidate reminders

A reminder is first checked against the release that it is about, then against the records before
it: an intent is attempted once, and retried only when its last attempt failed or was deferred. A
repeated request finds its record.
-/

namespace StockProfiler.Delivery

open CandidateSelection

/-- A request at one time, about a release as it is read then, for one scope. -/
structure ReminderInput where
  release : CandidateReleaseView
  request : CandidateReminderRequest
  observedAt : Instant
  scopeIdentity : String

variable (identities : ReminderIdentities) (input : ReminderInput)
  (history : List CandidateReminderRecord) (release : CandidateReleaseView)

/-- Whether a release is shown as one that may be relied on. -/
def CandidateReleaseView.eligible : Bool :=
  release.status ∈ [.current, .waitingMarket]

/-- The reminders of a report that may have reached the user. -/
def priorAlerts : List CandidateReminderRecord :=
  history.filter fun item =>
    item.reportVersionId = release.reportVersionId ∧ item.pathCompleted ∧
      item.kind ≠ .correction ∧ item.channels.any (·.result ≠ .rejected)

/-- Whether an alert with candidates may have reached the user. -/
def alerted : Bool :=
  (priorAlerts history release).any fun item => 0 < item.body.candidateCount

/-- The checks of a request that its release decides. -/
def permits : Bool :=
  let release := input.release
  let request := input.request
  !(request.kind = .planReady ||
    (request.kind ≠ .correction &&
      (release.supersededByReportId.isSome ||
        (release.release.disposition = .candidates && !release.eligible))) ||
    (request.kind = .final &&
      (!release.eligible || !release.release.members.any (·.candidate) ||
        release.finalReminderBefore.all (· ≤ input.observedAt))) ||
    (request.kind = .correction &&
      (release.status ∉ [.superseded, .invalidated, .expired] || !alerted history release)))

/-- The evidence that makes a correction: `withdrawal_evidence_ids or status_evidence_ids or
(event_id,)`. -/
def materialEvidence : List String :=
  if release.withdrawalEvidenceIds ≠ [] then release.withdrawalEvidenceIds
  else if release.statusEvidenceIds ≠ [] then release.statusEvidenceIds
  else [release.eventId]

/-- What a request is about. -/
def ReminderInput.intent : CandidateReminderIntent where
  scopeIdentity := input.scopeIdentity
  planMonth := input.release.planMonth
  kind := input.request.kind
  material :=
    if input.request.kind = .correction then
      some (input.release.reportVersionId, materialEvidence input.release)
    else none

/-- The identity of what a request is about. -/
def ReminderInput.intentId : String := identities.intentId input.intent

/-- Whether a quiet period would have the user rely on a withdrawn release. -/
def harmfulQuietDelay : Bool :=
  input.request.kind = .correction &&
    input.request.quietUntil.any (input.observedAt < ·) &&
    input.release.validThrough.any (input.observedAt < ·) &&
    alerted history input.release

/-- How a reminder ends. -/
def reminderStatus : CandidateReminderStatus :=
  if !input.request.remindersEnabled && input.request.kind ≠ .correction then .disabled
  else if input.request.quietUntil.any (input.observedAt < ·) &&
      !harmfulQuietDelay input history then .deferred
  else .attempted

/-- The channels of a reminder that is attempted. -/
def reminderChannels : List CandidateReminderChannel :=
  if reminderStatus input history ≠ .attempted then []
  else if input.request.primaryResult ≠ .accepted || harmfulQuietDelay input history then
    [⟨.primary, input.request.primaryResult⟩, ⟨.persistent, input.request.fallbackResult⟩]
  else [⟨.primary, input.request.primaryResult⟩]

/-- The record of a reminder. -/
def reminderRecord : CandidateReminderRecord where
  intentId := input.intentId identities
  attemptId := identities.attemptId (input.intentId identities)
    (identities.requestDigest input.request)
  reportVersionId := input.release.reportVersionId
  planMonth := input.release.planMonth
  kind := input.request.kind
  requestDigest := identities.requestDigest input.request
  recordedAt := input.observedAt
  body :=
    { resultType :=
        if input.request.kind = .correction then "WITHDRAWN_DO_NOT_RELY_ON_ORIGINAL"
        else input.release.release.disposition.name
      candidateCount :=
        if input.request.kind = .correction then 0
        else input.release.release.members.countP (·.candidate)
      windowEndsAt := input.release.validThrough
      entryPath := "/candidates/releases/" ++ input.release.reportVersionId }
  channels := reminderChannels input history
  status := reminderStatus input history
  deferredUntil :=
    if reminderStatus input history = .deferred then input.request.quietUntil else none
  retryOf := input.request.retryOf
  pathCompleted := reminderStatus input history = .attempted

/-- Whether a deferred reminder is due. -/
def deferredDue (previous : CandidateReminderRecord) : Bool :=
  previous.status = .deferred &&
    previous.deferredUntil.any fun deadline =>
      deadline ≤ input.observedAt ∧ input.request.quietUntil = some deadline

/-- Whether no channel of an attempt accepted it. -/
def CandidateReminderRecord.failedAttempt (previous : CandidateReminderRecord) : Bool :=
  previous.status = .attempted && previous.channels.all (·.result ≠ .accepted)

/-- A first attempt of an intent. -/
def firstAttempt : Option CandidateReminderRecord :=
  match history.find? (·.intentId = input.intentId identities) with
  | some existing =>
    if existing.requestDigest = identities.requestDigest input.request ∧
        existing.reportVersionId = input.release.reportVersionId then some existing
    else none
  | none => some (reminderRecord identities input history)

/-- A retry of an attempt. -/
def retryAttempt (retryOf : String) : Option CandidateReminderRecord :=
  match history.find? (·.attemptId = retryOf) with
  | none => none
  | some previous =>
    if previous.intentId ≠ input.intentId identities ∨
        previous.reportVersionId ≠ input.release.reportVersionId then none
    else
      match history.find? (·.retryOf = some retryOf) with
      | some repeated =>
        if repeated.requestDigest = identities.requestDigest input.request then some repeated
        else none
      | none =>
        if deferredDue input previous || previous.failedAttempt then
          some (reminderRecord identities input history)
        else none

/-- `prepare_candidate_reminder`. -/
def prepareCandidateReminder : Option CandidateReminderRecord :=
  if permits input history then
    match input.request.retryOf with
    | none => firstAttempt identities input history
    | some retryOf => retryAttempt identities input history retryOf
  else none

/-- A new record is appended; one that is there already is not added again. -/
def appendReminder : List CandidateReminderRecord :=
  match prepareCandidateReminder identities input history with
  | some record => if record ∈ history then history else history ++ [record]
  | none => history

/-- The records that requests leave, one after another. -/
def reminderHistory (inputs : List ReminderInput) : List CandidateReminderRecord :=
  inputs.foldl (fun history input => appendReminder identities input history) []

end StockProfiler.Delivery
