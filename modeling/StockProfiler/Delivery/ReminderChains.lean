import StockProfiler.Delivery.CandidateNotifications
import Mathlib.Data.List.Chain

/-!
# Retry chains

The records of an intent are one chain of retries, which ends with an attempt that a channel
accepted, or with one that the user has disabled. A repeated request adds no record.
-/

namespace StockProfiler.Delivery

/-- Whether nothing follows a record: a channel accepted it, or reminders are disabled. -/
def CandidateReminderRecord.closed (record : CandidateReminderRecord) : Bool :=
  record.status = .attempted && record.channels.any (·.result = .accepted) ||
    record.status = .disabled

/-- Records of one intent in order: a first attempt, and retries each of the one before, which was
not closed. -/
structure IsRetryChain (records : List CandidateReminderRecord) : Prop where
  first : ∀ record ∈ records.head?, record.retryOf = none
  retries : records.IsChain fun previous next =>
    next.retryOf = some previous.attemptId ∧ previous.closed = false

/-- Why a record was added: it is the first of its intent, or the first retry of an open attempt
of the same intent and report. -/
def Attempted (earlier : List CandidateReminderRecord) (record : CandidateReminderRecord) : Prop :=
  (record.retryOf = none ∧ ∀ item ∈ earlier, item.intentId ≠ record.intentId) ∨
    ∃ previous, record.retryOf = some previous.attemptId ∧
      earlier.find? (·.attemptId = previous.attemptId) = some previous ∧
      previous.intentId = record.intentId ∧ previous.reportVersionId = record.reportVersionId ∧
      previous.closed = false ∧ ∀ item ∈ earlier, item.retryOf ≠ some previous.attemptId

section Steps

variable {identities : ReminderIdentities} {input : ReminderInput}
  {history : List CandidateReminderRecord} {record : CandidateReminderRecord}

/-- A reminder that is retried is not closed. -/
theorem not_closed_of_retried {previous : CandidateReminderRecord}
    (h : (deferredDue input previous || previous.failedAttempt) = true) :
    previous.closed = false := by
  unfold CandidateReminderRecord.closed
  rcases Bool.or_eq_true_iff.mp h with hdue | hfailed
  · have hstatus := of_decide_eq_true (Bool.and_eq_true_iff.mp hdue).1
    simp [hstatus]
  · obtain ⟨hstatus, hchannels⟩ := Bool.and_eq_true_iff.mp hfailed
    have hstatus := of_decide_eq_true hstatus
    simp only [List.all_eq_true, decide_eq_true_eq] at hchannels
    simp only [hstatus, decide_true, Bool.true_and, reduceCtorEq, decide_false, Bool.or_false,
      List.any_eq_false, decide_eq_true_eq]
    exact hchannels

/-- A request finds a record that there is, or makes one that may be added. -/
theorem attempted_of_prepare (h : prepareCandidateReminder identities input history = some record) :
    record ∈ history ∨
      (record = reminderRecord identities input history ∧ Attempted history record) := by
  unfold prepareCandidateReminder at h
  split at h
  · split at h
    · rename_i hretry
      unfold firstAttempt at h
      split at h
      · rename_i existing hexisting
        split at h
        · exact .inl (Option.some.inj h ▸ List.mem_of_find?_eq_some hexisting)
        · exact nomatch h
      · rename_i hnone
        cases h
        refine .inr ⟨rfl, .inl ⟨hretry, fun item hitem heq => ?_⟩⟩
        exact List.find?_eq_none.mp hnone item hitem (decide_eq_true heq)
    · rename_i retryOf hretry
      unfold retryAttempt at h
      split at h
      · exact nomatch h
      · rename_i previous hprevious
        split at h
        · exact nomatch h
        · rename_i hsame
          rw [not_or, not_not, not_not] at hsame
          split at h
          · rename_i repeated hrepeated
            split at h
            · exact .inl (Option.some.inj h ▸ List.mem_of_find?_eq_some hrepeated)
            · exact nomatch h
          · rename_i hnone
            split at h
            · rename_i hopen
              cases h
              obtain rfl : previous.attemptId = retryOf :=
                of_decide_eq_true (List.find?_eq_some_iff_append.mp hprevious).1
              refine .inr ⟨rfl, .inr ⟨previous, hretry, hprevious, hsame.1, hsame.2,
                not_closed_of_retried hopen, fun item hitem heq => ?_⟩⟩
              exact List.find?_eq_none.mp hnone item hitem (decide_eq_true heq)
            · exact nomatch h
  · exact nomatch h

theorem appendReminder_cases (identities : ReminderIdentities) (input : ReminderInput)
    (history : List CandidateReminderRecord) :
    appendReminder identities input history = history ∨
      ∃ record, appendReminder identities input history = history ++ [record] ∧
        Attempted history record := by
  unfold appendReminder
  split
  · rename_i record hrecord
    split
    · exact .inl rfl
    · rename_i hnew
      rcases attempted_of_prepare hrecord with hmem | ⟨-, hattempted⟩
      · exact absurd hmem hnew
      · exact .inr ⟨record, rfl, hattempted⟩
  · exact .inl rfl

theorem explained_reminderHistory (identities : ReminderIdentities) (inputs : List ReminderInput) :
    Explained Attempted (reminderHistory identities inputs) := by
  induction inputs using List.reverseRecOn with
  | nil => exact explained_nil
  | append_singleton inputs input ih =>
    rw [reminderHistory, List.foldl_append, ← reminderHistory, List.foldl_cons, List.foldl_nil]
    rcases appendReminder_cases identities input (reminderHistory identities inputs) with heq |
      ⟨record, heq, hattempted⟩
    · rw [heq]
      exact ih
    · rw [heq]
      exact explained_snoc.mpr ⟨ih, hattempted⟩

end Steps

section Chains

variable {record : CandidateReminderRecord} {history : List CandidateReminderRecord}

theorem length_retries_le_one (h : Explained Attempted history) (attemptId : String) :
    (history.filter (·.retryOf = some attemptId)).length ≤ 1 := by
  induction history using List.reverseRecOn with
  | nil => exact Nat.zero_le 1
  | append_singleton history record ih =>
    obtain ⟨hhistory, hrecord⟩ := explained_snoc.mp h
    rw [List.filter_append, List.length_append]
    by_cases hretry : record.retryOf = some attemptId
    · have hempty : history.filter (·.retryOf = some attemptId) = [] := by
        rcases hrecord with ⟨hnone, -⟩ | ⟨previous, hsome, -, -, -, -, hunused⟩
        · exact nomatch hnone.symm.trans hretry
        · refine List.filter_eq_nil_iff.mpr fun item hitem heq => hunused item hitem ?_
          rw [of_decide_eq_true heq, ← hretry, hsome]
      rw [hempty, List.length_nil, Nat.zero_add]
      exact List.length_filter_le _ _
    · have hnone : [record].filter (·.retryOf = some attemptId) = [] :=
        List.filter_eq_nil_iff.mpr fun item hitem heq =>
          hretry (List.mem_singleton.mp hitem ▸ of_decide_eq_true heq)
      rw [hnone]
      exact ih hhistory

theorem getLast?_of_not_retried {records : List CandidateReminderRecord}
    (h : records.IsChain fun previous next =>
      next.retryOf = some previous.attemptId ∧ previous.closed = false) (hmem : record ∈ records)
    (hunused : ∀ item ∈ records, item.retryOf ≠ some record.attemptId) :
    records.getLast? = some record := by
  obtain ⟨front, back, rfl⟩ := List.append_of_mem hmem
  cases back with
  | nil => exact List.getLast?_concat
  | cons next back =>
    obtain ⟨hretry, -⟩ := List.isChain_cons_cons.mp (List.isChain_append.mp h).2.1
    exact absurd hretry.1 (hunused next (by simp))

/-- The reminders of one intent form a chain of retries. -/
theorem isRetryChain_filter (h : Explained Attempted history) (intentId : String) :
    IsRetryChain (history.filter (·.intentId = intentId)) := by
  induction history using List.reverseRecOn with
  | nil =>
    rw [List.filter_nil]
    exact ⟨fun _ hmem => (nomatch hmem), .nil⟩
  | append_singleton history record ih =>
    obtain ⟨hhistory, hrecord⟩ := explained_snoc.mp h
    have ih := ih hhistory
    rw [List.filter_append]
    by_cases hintent : record.intentId = intentId
    · have hlast : [record].filter (·.intentId = intentId) = [record] :=
        List.filter_eq_self.mpr fun item hitem =>
          decide_eq_true (List.mem_singleton.mp hitem ▸ hintent)
      rw [hlast]
      rcases hrecord with ⟨hnone, hunused⟩ | ⟨previous, hretry, hprevious, hsame, -, hopen, hunused⟩
      · have hempty : history.filter (·.intentId = intentId) = [] :=
          List.filter_eq_nil_iff.mpr fun item hitem heq =>
            hunused item hitem ((of_decide_eq_true heq).trans hintent.symm)
        rw [hempty]
        refine ⟨fun item hitem => ?_, List.isChain_singleton _⟩
        rw [← Option.some.inj hitem]
        exact hnone
      · have hmem : previous ∈ history.filter (·.intentId = intentId) :=
          List.mem_filter.mpr ⟨List.mem_of_find?_eq_some hprevious,
            decide_eq_true (hsame.trans hintent)⟩
        have hprior := getLast?_of_not_retried ih.retries hmem fun item hitem =>
          hunused item (List.mem_of_mem_filter hitem)
        refine ⟨fun item hitem => ih.first item ?_, ?_⟩
        · rw [List.head?_append_of_ne_nil _ (List.ne_nil_of_mem hmem)] at hitem
          exact hitem
        · refine List.isChain_append.mpr ⟨ih.retries, List.isChain_singleton _, ?_⟩
          intro last hlast next hnext
          rw [hprior] at hlast
          cases hlast
          cases hnext
          exact ⟨hretry, hopen⟩
    · have hnone : [record].filter (·.intentId = intentId) = [] :=
        List.filter_eq_nil_iff.mpr fun item hitem heq =>
          hintent (List.mem_singleton.mp hitem ▸ of_decide_eq_true heq)
      rw [hnone, List.append_nil]
      exact ih

theorem IsRetryChain.eq_nil_of_closed {earlier later : List CandidateReminderRecord}
    (h : IsRetryChain (earlier ++ record :: later)) (hclosed : record.closed = true) :
    later = [] := by
  cases later with
  | nil => rfl
  | cons next later =>
    obtain ⟨⟨-, hopen⟩, -⟩ := List.isChain_cons_cons.mp (List.isChain_append.mp h.retries).2.1
    exact nomatch hclosed.symm.trans hopen

end Chains

/-- A record is the one that a request asks for. -/
def ReminderInput.AsksFor (identities : ReminderIdentities) (input : ReminderInput)
    (record : CandidateReminderRecord) : Prop :=
  record.intentId = input.intentId identities ∧
    record.requestDigest = identities.requestDigest input.request ∧
    record.reportVersionId = input.release.reportVersionId ∧
    record.retryOf = input.request.retryOf

instance (identities : ReminderIdentities) (input : ReminderInput)
    (record : CandidateReminderRecord) : Decidable (input.AsksFor identities record) :=
  instDecidableAnd

/-- The records of every intent are one retry chain, whose closed records come last; every attempt
is retried once at most; kinds other than corrections have one intent for the month of a scope; and
a repeated request adds no record, but finds the one that there is while its release still permits
it, and is refused otherwise. -/
structure DeliveredOnce (identities : ReminderIdentities)
    (history : List CandidateReminderRecord) : Prop where
  chain : ∀ intentId, IsRetryChain (history.filter (·.intentId = intentId))
  retries : ∀ attemptId, (history.filter (·.retryOf = some attemptId)).length ≤ 1
  closed : ∀ intentId earlier record later,
    history.filter (·.intentId = intentId) = earlier ++ record :: later →
      record.closed = true → later = []
  monthly : ∀ input other : ReminderInput, input.request.kind ≠ .correction →
    other.request.kind = input.request.kind → other.scopeIdentity = input.scopeIdentity →
    other.release.planMonth = input.release.planMonth →
      other.intentId identities = input.intentId identities
  repeated : ∀ input, ∀ record ∈ history, input.AsksFor identities record →
    prepareCandidateReminder identities input history =
      (if permits input history then some record else none) ∧
    appendReminder identities input history = history

section Runs

variable {identities : ReminderIdentities} {input : ReminderInput}
  {history : List CandidateReminderRecord} {record : CandidateReminderRecord}

theorem find?_first (h : Explained Attempted history) (hmem : record ∈ history)
    (hnone : record.retryOf = none) :
    history.find? (·.intentId = record.intentId) = some record := by
  obtain ⟨earlier, later, heq⟩ := List.append_of_mem hmem
  rcases h earlier record later heq with ⟨-, hunused⟩ | ⟨previous, hsome, -⟩
  · rw [heq, List.find?_append, List.find?_eq_none.mpr, Option.none_or]
    · exact List.find?_cons_of_pos (decide_eq_true rfl)
    · exact fun item hitem hsame => hunused item hitem (of_decide_eq_true hsame)
  · exact nomatch hnone.symm.trans hsome

theorem find?_retry (h : Explained Attempted history) (hmem : record ∈ history) {attemptId : String}
    (hsome : record.retryOf = some attemptId) :
    history.find? (·.retryOf = some attemptId) = some record ∧
      ∃ previous, history.find? (·.attemptId = attemptId) = some previous ∧
        previous.intentId = record.intentId ∧
        previous.reportVersionId = record.reportVersionId := by
  obtain ⟨earlier, later, heq⟩ := List.append_of_mem hmem
  rcases h earlier record later heq with ⟨hnone, -⟩ |
    ⟨previous, hretry, hprevious, hintent, hreport, -, hunused⟩
  · exact nomatch hnone.symm.trans hsome
  · obtain rfl := Option.some.inj (hretry.symm.trans hsome)
    refine ⟨?_, previous, ?_, hintent, hreport⟩
    · rw [heq, List.find?_append, List.find?_eq_none.mpr, Option.none_or]
      · exact List.find?_cons_of_pos (decide_eq_true hsome)
      · exact fun item hitem hsame => hunused item hitem (of_decide_eq_true hsame)
    · rw [heq, List.find?_append, hprevious, Option.some_or]

/-- A repeated request finds its record, when its release permits it. -/
theorem prepare_of_asksFor (h : Explained Attempted history) (hmem : record ∈ history)
    (hasks : input.AsksFor identities record) :
    prepareCandidateReminder identities input history =
      if permits input history then some record else none := by
  obtain ⟨hintent, hdigest, hreport, hretry⟩ := hasks
  unfold prepareCandidateReminder
  split
  · split
    · rename_i hnone
      have hfind := find?_first h hmem (hretry.trans hnone)
      rw [hintent] at hfind
      rw [firstAttempt, hfind]
      exact if_pos ⟨hdigest, hreport⟩
    · rename_i attemptId hsome
      obtain ⟨hfind, previous, hprevious, hsame, hversion⟩ :=
        find?_retry h hmem (hretry.trans hsome)
      rw [retryAttempt, hprevious, hfind]
      dsimp only
      rw [if_neg, if_pos hdigest]
      rw [not_or, not_not, not_not]
      exact ⟨hsame.trans hintent, hversion.trans hreport⟩
  · rfl

/-- Reminders other than corrections have one intent for the month of a scope, whatever the version
of its report. -/
theorem intentId_of_monthly (identities : ReminderIdentities) {other : ReminderInput}
    (hkind : input.request.kind ≠ .correction) (hsame : other.request.kind = input.request.kind)
    (hscope : other.scopeIdentity = input.scopeIdentity)
    (hmonth : other.release.planMonth = input.release.planMonth) :
    other.intentId identities = input.intentId identities := by
  unfold ReminderInput.intentId ReminderInput.intent
  rw [hsame, hscope, hmonth, if_neg hkind, if_neg hkind]

/-- Reminders are delivered once, whatever requests come in whatever order. -/
theorem run_deliveredOnce (identities : ReminderIdentities) (inputs : List ReminderInput) :
    DeliveredOnce identities (reminderHistory identities inputs) := by
  have h := explained_reminderHistory identities inputs
  refine ⟨isRetryChain_filter h, length_retries_le_one h,
    fun intentId earlier record later heq => ?_,
    fun _ _ => intentId_of_monthly identities, fun input record hmem hasks => ?_⟩
  · exact IsRetryChain.eq_nil_of_closed (heq ▸ isRetryChain_filter h intentId)
  · have hprepare := prepare_of_asksFor h hmem hasks
    refine ⟨hprepare, ?_⟩
    rw [appendReminder, hprepare]
    split
    · rename_i found hfound
      split at hfound
      · rw [← Option.some.inj hfound]
        exact if_pos hmem
      · exact nomatch hfound
    · rfl

end Runs

namespace SampleReminders

def identities : ReminderIdentities where
  intentId := fun intent => intent.scopeIdentity ++ "/" ++ intent.planMonth
  requestDigest := fun request => request.retryOf.getD "first"
  attemptId := fun intentId digest => intentId ++ "/" ++ digest

def outcome : CandidateSelection.CandidateReleaseOutcome where
  batchId := "batch"
  disposition := .candidates
  knowledgeCutoff := 0
  publishedAt := 0
  capabilityVersion := "1"
  researchObjectId := "research"
  researchEventId := "event"
  marketCalendarVersion := "calendar"
  marketState := .bull
  members := []
  population := ⟨true, true, true, none⟩
  validMarketDates := []
  reasons := []

/-- A first reminder of the release, which its channel accepts, as the release is read at some
time. -/
def initial (status : CandidateReleaseStatus) (observedAt : Instant) : ReminderInput where
  release :=
    { reportVersionId := "report"
      eventId := "event"
      planMonth := "2042-07"
      validFrom := some 0
      validThrough := some 10
      finalReminderBefore := some 9
      status
      statusReasons := []
      supersededByReportId := none
      release := outcome }
  request :=
    { generatorVersion := "1"
      seed := 1
      kind := .initial
      primaryResult := .accepted
      fallbackResult := .accepted }
  observedAt
  scopeIdentity := "user"

def record : CandidateReminderRecord :=
  reminderRecord identities (initial .current 1) []

theorem record_spec : reminderHistory identities [initial .current 1] = [record] ∧
    (initial .expired 11).AsksFor identities record ∧
    prepareCandidateReminder identities (initial .expired 11) [record] = none := by
  decide +kernel

end SampleReminders

/-- A request that is repeated after its release has expired is refused, though its record is
there. -/
theorem sample_repeatRefused :
    ∃ identities inputs, ∃ input : ReminderInput, ∃ first ∈ inputs,
      ∃ record ∈ reminderHistory identities inputs,
        input.request = first.request ∧ input.AsksFor identities record ∧
          prepareCandidateReminder identities input (reminderHistory identities inputs) ≠
            some record := by
  obtain ⟨hhistory, hasks, hrefused⟩ := SampleReminders.record_spec
  refine ⟨SampleReminders.identities, [SampleReminders.initial .current 1],
    SampleReminders.initial .expired 11, SampleReminders.initial .current 1,
    List.mem_singleton_self _, SampleReminders.record, ?_, rfl, hasks, ?_⟩
  · rw [hhistory]
    exact List.mem_singleton_self _
  · rw [hhistory, hrefused]
    exact nofun

end StockProfiler.Delivery
