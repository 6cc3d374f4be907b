import StockProfiler.CandidateSelection.ReleaseContracts

/-!
# Candidate views and reminders

What a reader sees of a candidate release, what may be asked of its reminders, and the records of
reminders, which are appended to the stages of its event.
-/

namespace StockProfiler.Delivery

open CandidateSelection

/-- The display state of a candidate release. -/
inductive CandidateReleaseStatus where
  | current
  | result
  | waitingMarket
  | expired
  | superseded
  | invalidated
  deriving DecidableEq

/-- A candidate release as it is read at one time. -/
structure CandidateReleaseView where
  reportVersionId : String
  eventId : String
  planMonth : String
  validFrom : Option Instant
  validThrough : Option Instant
  finalReminderBefore : Option Instant
  status : CandidateReleaseStatus
  statusReasons : List String
  statusEvidenceIds : List String := []
  withdrawalEvidenceIds : List String := []
  supersededByReportId : Option String
  release : CandidateReleaseOutcome

/-- What a reminder is about. -/
inductive CandidateReminderKind where
  | initial
  | planReady
  | final
  | correction
  deriving DecidableEq

/-- What a channel answers. -/
inductive ChannelResult where
  | accepted
  | rejected
  | unknown
  | timeout
  deriving DecidableEq

/-- A request for a reminder, with the observed results of its channels. -/
structure CandidateReminderRequest where
  generatorVersion : String
  seed : ℤ
  kind : CandidateReminderKind
  quietUntil : Option Instant := none
  remindersEnabled : Bool := true
  retryOf : Option String := none
  primaryResult : ChannelResult
  fallbackResult : ChannelResult

/-- What a reminder tells. -/
structure CandidateReminderBody where
  resultType : String
  candidateCount : ℕ
  windowEndsAt : Option Instant := none
  entryPath : String
  deriving DecidableEq

/-- The part that a channel plays. -/
inductive ChannelRole where
  | primary
  | persistent
  deriving DecidableEq

/-- An attempted channel. -/
structure CandidateReminderChannel where
  role : ChannelRole
  result : ChannelResult
  deriving DecidableEq

/-- How a reminder ends. -/
inductive CandidateReminderStatus where
  | attempted
  | deferred
  | disabled
  deriving DecidableEq

/-- The record of one reminder. -/
structure CandidateReminderRecord where
  intentId : String
  attemptId : String
  reportVersionId : String
  planMonth : String
  kind : CandidateReminderKind
  requestDigest : String
  recordedAt : Instant
  body : CandidateReminderBody
  channels : List CandidateReminderChannel
  status : CandidateReminderStatus
  deferredUntil : Option Instant := none
  retryOf : Option String := none
  pathCompleted : Bool
  deriving DecidableEq

/-- What an intent is about: a kind of reminder for the month of a scope, and for a correction the
report and its invalidating evidence. -/
structure CandidateReminderIntent where
  scopeIdentity : String
  planMonth : String
  kind : CandidateReminderKind
  material : Option (String × List String)

/-- The hashed identities of intents, requests and attempts. -/
structure ReminderIdentities where
  intentId : CandidateReminderIntent → String
  requestDigest : CandidateReminderRequest → String
  attemptId : String → String → String

end StockProfiler.Delivery
