import StockProfiler.Publication.EventWrites

/-!
# One event and one report

Whatever attempts there are and however they interleave, a business object has one original
event and one correction, and what users see are projections of these.
-/

namespace StockProfiler.Publication

open CandidateSelection Qualification

/-- An answer that an event is not saved is about an object without one. -/
def Answer.IsTrue (ledger : DecisionLedger) : Answer → Prop
  | .unpublished id status _ => status ∈ [.failed, .unknown] → ledger.originals id = []
  | .correctionFailed id status => status ∈ [.failed, .unknown] →
      ∀ fact ∈ ledger.events, fact.businessObjectId = id → fact.correctsEventId = none
  | _ => True

/-- Every business object has at most one original event and one correction, which never change;
reports are projections of events, and are seen when these are saved and published; and attempts
answer with them, or truly that there is none. -/
structure ExactlyOnce {π : Type*} [DecidableEq π] (contracts : HostContracts)
    (start s : Attempts π) : Prop where
  original : ∀ id, (s.store.originals id).length ≤ 1
  correction : ∀ id, (s.store.events.filter fun fact =>
    fact.businessObjectId = id ∧ fact.correctsEventId ≠ none).length ≤ 1
  corrected : ∀ fact ∈ s.store.events, ∀ original, fact.correctsEventId = some original →
    ∃ e ∈ s.store.originals fact.businessObjectId, e.decisionEventId = original
  unchanged : ∀ later, Shared.Run (advance contracts) (fun _ _ _ => True) s later →
    s.store.events <+: later.store.events
  projection : ∀ row ∈ s.store.reports, ∃ fact ∈ s.store.events,
    row = formalReport contracts fact
  visible : ∀ row ∈ s.store.reports, ∀ report,
    s.store.visibleReport contracts (some row) = some (some report) →
      ∃ fact : DecisionEventFact, row = formalReport contracts fact ∧
        fact.ShownBy contracts s.store report ∧
        (∃ saved ∈ s.store.savedStages fact.decisionEventId,
          saved.1.isStage .businessCommit .succeeded) ∧
        ∃ saved ∈ s.store.savedStages fact.decisionEventId,
          saved.1.isStage .publication .succeeded ∨ isCandidatePublicationClosureFailure saved.1
  shadow : ∀ fact ∈ s.store.events, fact.case.isShadow →
    ∀ row ∈ s.store.reports, row.eventId ≠ fact.decisionEventId
  published : ∀ p report, s.progress p = .answered (.published report) →
    ∃ id fact, (start.progress p).Requests id ∧ s.store.originals id = [fact] ∧
      fact.ShownBy contracts s.store report
  publishedCorrection : ∀ p report, s.progress p = .answered (.corrected report) →
    ∃ id fact, (start.progress p).Requests id ∧
      (s.store.events.filter fun fact =>
        fact.businessObjectId = id ∧ fact.correctsEventId ≠ none) = [fact] ∧
      fact.ShownBy contracts s.store report
  denied : ∀ p act answer, (∀ answer, s.progress p ≠ .answered answer) →
    (advance contracts act s.store (s.progress p)).2 = .answered answer →
      answer.IsTrue (advance contracts act s.store (s.progress p)).1

section ExactlyOnce

variable {π : Type*} [DecidableEq π] {contracts : HostContracts} {start s : Attempts π}
  {allowed : Attempts π → π → Act → Prop} {ledger : DecisionLedger}

theorem Consistent.length_filter_le_one (h : Consistent contracts ledger)
    {keep : DecisionEventFact → Bool}
    (heq : ∀ a ∈ ledger.events, ∀ b ∈ ledger.events, keep a → keep b → a = b) :
    (ledger.events.filter keep).length ≤ 1 := by
  have hnodup : (ledger.events.filter keep).Nodup := (h.events_nodup.of_map _).filter _
  match hfilter : ledger.events.filter keep with
  | [] => exact Nat.zero_le 1
  | [_] => exact Nat.le_refl 1
  | a :: b :: rest =>
    rw [hfilter] at hnodup
    have ha : a ∈ ledger.events.filter keep := hfilter ▸ List.mem_cons_self ..
    have hb : b ∈ ledger.events.filter keep :=
      hfilter ▸ List.mem_cons_of_mem _ (List.mem_cons_self ..)
    rw [List.mem_filter] at ha hb
    obtain rfl := heq a ha.1 b hb.1 ha.2 hb.2
    exact absurd (List.mem_cons_self ..) (List.nodup_cons.mp hnodup).1

/-- A list of at most one element is the list of the one that it has. -/
theorem eq_singleton_of_length_le_one {α : Type*} {l : List α} {a : α} (h : l.length ≤ 1)
    (hmem : a ∈ l) : l = [a] := by
  match l with
  | [b] => rw [List.mem_singleton.mp hmem]
  | _ :: _ :: _ =>
    simp only [List.length_cons] at h
    omega

theorem Consistent.length_originals (h : Consistent contracts ledger) (id : String) :
    (ledger.originals id).length ≤ 1 := by
  refine h.length_filter_le_one fun a ha b hb hkeep hkeep' => ?_
  rw [decide_eq_true_eq] at hkeep hkeep'
  exact h.eq_of_original ha hb hkeep.2 hkeep'.2 (hkeep.1.trans hkeep'.1.symm)

theorem Consistent.length_corrections (h : Consistent contracts ledger) (id : String) :
    (ledger.events.filter fun fact =>
      fact.businessObjectId = id ∧ fact.correctsEventId ≠ none).length ≤ 1 := by
  refine h.length_filter_le_one fun a ha b hb hkeep hkeep' => ?_
  rw [decide_eq_true_eq] at hkeep hkeep'
  obtain ⟨o, ho⟩ := Option.ne_none_iff_exists'.mp hkeep.2
  obtain ⟨o', ho'⟩ := Option.ne_none_iff_exists'.mp hkeep'.2
  obtain ⟨-, e, he, rfl, hnone, hobject⟩ := (h.attempted a ha).correction o ho
  obtain ⟨-, e', he', rfl, hnone', hobject'⟩ := (h.attempted b hb).correction o' ho'
  obtain rfl := h.eq_of_original he he' hnone hnone'
    (hobject.trans (hkeep.1.trans (hkeep'.1.symm.trans hobject'.symm)))
  exact h.eq_of_correction ha hb ho ho'

/-- Fitting attempts that only give true answers commit exactly once. -/
theorem Attempts.Fits.exactlyOnce (h : start.Fits contracts s)
    (hdenied : ∀ p act answer, (∀ answer, s.progress p ≠ .answered answer) →
      (advance contracts act s.store (s.progress p)).2 = .answered answer →
        answer.IsTrue (advance contracts act s.store (s.progress p)).1) :
    ExactlyOnce contracts start s where
  original := h.consistent.length_originals
  correction := h.consistent.length_corrections
  corrected := by
    intro fact hfact original hsome
    obtain ⟨-, e, he, hid, hnone, hobject⟩ :=
      (h.consistent.attempted fact hfact).correction original hsome
    exact ⟨e, DecisionLedger.mem_originals.mpr ⟨he, hobject, hnone⟩, hid⟩
  unchanged := fun later hrun => (h.run hrun).1.events
  projection := by
    intro row hrow
    obtain ⟨fact, hfact, heq, -⟩ := h.consistent.reports row hrow
    exact ⟨fact, hfact, heq⟩
  visible := by
    intro row hrow report hreport
    obtain ⟨fact, heq, hvisible⟩ := DecisionLedger.visible_of_visibleReport hrow hreport
    refine ⟨fact, heq, ⟨(DecisionLedger.mem_of_event? hvisible.event).1, _,
      List.prefix_refl _, hvisible.stages⟩, List.any_eq_true.mp hvisible.committed, ?_⟩
    obtain ⟨saved, hsaved, hstage⟩ := List.any_eq_true.mp hvisible.visible
    exact ⟨saved, hsaved, Bool.or_eq_true_iff.mp hstage⟩
  shadow := by
    intro fact hfact hshadow row hrow hid
    obtain ⟨other, hother, rfl, hvisible⟩ := h.consistent.reports row hrow
    obtain rfl := h.consistent.eq_of_decisionEventId hother hfact hid
    rw [hshadow] at hvisible
    exact nomatch hvisible
  published := by
    intro p report hanswer
    have hholds := h.holds p
    have hserves := h.serves p
    rw [hanswer] at hholds hserves
    obtain ⟨fact, hnone, hshown⟩ := hholds
    have hfact := hshown.1
    obtain ⟨saved, -, hstages⟩ := hshown.2
    have hobject : report.businessObjectId = fact.businessObjectId :=
      businessObjectId_of_withSavedStages hstages
    refine ⟨report.businessObjectId, fact, hserves _ rfl, ?_, hshown⟩
    exact eq_singleton_of_length_le_one (h.consistent.length_originals _)
      (DecisionLedger.mem_originals.mpr ⟨hfact, hobject.symm, hnone⟩)
  publishedCorrection := by
    intro p report hanswer
    have hholds := h.holds p
    have hserves := h.serves p
    rw [hanswer] at hholds hserves
    obtain ⟨fact, hsome, hshown⟩ := hholds
    have hfact := hshown.1
    obtain ⟨saved, -, hstages⟩ := hshown.2
    have hobject : report.businessObjectId = fact.businessObjectId :=
      businessObjectId_of_withSavedStages hstages
    refine ⟨report.businessObjectId, fact, hserves _ rfl, ?_, hshown⟩
    exact eq_singleton_of_length_le_one (h.consistent.length_corrections _)
      (List.mem_filter.mpr ⟨hfact, decide_eq_true ⟨hobject.symm, hsome⟩⟩)
  denied := hdenied

omit [DecidableEq π] in
/-- An answer given while every denial is right is true of the store. -/
theorem isTrue_of_advance (hfits : start.Fits contracts s)
    (hdenies : ∀ q, (s.progress q).DeniesRightly s.store) {p : π} {act : Act} {answer : Answer}
    (hphase : ∀ answer, s.progress p ≠ .answered answer)
    (hanswer : (advance contracts act s.store (s.progress p)).2 = .answered answer) :
    answer.IsTrue (advance contracts act s.store (s.progress p)).1 := by
  rcases advance_spec hfits.consistent act (s.progress p) with hadds | hsame |
    ⟨_, _, _, _, _, heq⟩ | ⟨fact, uncertain, stages, input, hunsaved, heq⟩
  · have hfalse := hadds.denies
    rw [hanswer] at hfalse
    cases answer with
    | unpublished id status _ =>
      exact fun hstatus => nomatch (decide_eq_true hstatus).symm.trans hfalse
    | correctionFailed id status =>
      exact fun hstatus => nomatch (decide_eq_true hstatus).symm.trans hfalse
    | published => trivial
    | corrected => trivial
  · rw [hsame] at hanswer
    exact absurd hanswer (hphase answer)
  · rw [heq] at hanswer
    exact nomatch hanswer
  · rw [heq] at hanswer ⊢
    have habsent := hdenies p
    rw [hunsaved] at habsent
    obtain ⟨hevents, hphases⟩ := recordUnsaved_spec s.store input fact uncertain stages
    have habsent := DecisionEventFact.Absent.congr habsent hevents
    rcases hphases with hstopped | ⟨hnone, status, stages', hunpublished⟩ | ⟨hsome, status, hfailed⟩
    · rw [hstopped] at hanswer
      exact nomatch hanswer
    · rw [hunpublished] at hanswer
      obtain rfl := Phase.answered.inj hanswer
      intro _
      refine List.eq_nil_iff_forall_not_mem.mpr fun other hother => ?_
      obtain ⟨hother, hobject, hnone'⟩ := DecisionLedger.mem_originals.mp hother
      exact habsent other hother hobject (by rw [hnone, hnone'])
    · rw [hfailed] at hanswer
      obtain rfl := Phase.answered.inj hanswer
      intro _ other hother hobject
      by_contra hsome'
      refine habsent other hother hobject ?_
      rw [Option.isNone_eq_false_iff.mpr (Option.isSome_iff_ne_none.mpr hsome),
        Option.isNone_eq_false_iff.mpr (Option.isSome_iff_ne_none.mpr hsome')]

/-- In every run whose commits are fenced, attempts deny rightly. -/
theorem Attempts.Fits.deniesRightly (h : start.Fits contracts start)
    (hrequests : ∀ p, (start.progress p).DeniesRightly start.store)
    (hrun : Shared.Run (advance contracts) Fenced start s) :
    start.Fits contracts s ∧ ∀ p, (s.progress p).DeniesRightly s.store := by
  induction hrun with
  | refl => exact ⟨h, hrequests⟩
  | step _ hfenced ih => exact ⟨(ih.1.next _ _).2, deniesRightly_next ih.1 ih.2 hfenced⟩

/-- Runs whose commits are fenced keep one event and one report. -/
theorem run_exactlyOnce (hfresh : start.Fresh)
    (hrun : Shared.Run (advance contracts) Fenced start s) : ExactlyOnce contracts start s := by
  have hrequests : ∀ p, (start.progress p).DeniesRightly start.store := by
    intro p
    have hrequest := hfresh.requests p
    cases hphase : start.progress p <;> rw [hphase] at hrequest <;> trivial
  obtain ⟨hfits, hdenies⟩ := hfresh.fits.deniesRightly hrequests hrun
  exact hfits.exactlyOnce fun p act answer hphase hanswer =>
    isTrue_of_advance hfits hdenies hphase hanswer

end ExactlyOnce

namespace SampleAttempts

def contracts : HostContracts where
  mAgentReleaseCommit := "commit"
  calendars := fun _ => none
  reportVersionId := fun event version => "report:" ++ event ++ version
  correctionEventId := fun object original => "correction:" ++ object ++ original
  correctionReportVersionId := fun correction => "report:" ++ correction
  matchesRecoveryInput := fun saved case => saved = case
  legacyOutcomeStage := fun _ => none

def versionBundle : DecisionCaseVersionBundle :=
  ⟨"5", "1", "1", "sha", "agent", "1", "adapter", "1", "1", "1", "0.5.1", "url", "wheel",
    "commit"⟩

def case : FrozenDecisionCase where
  caseId := "case"
  businessObjectId := "object"
  frameworkRunId := "run"
  decisionEventId := "event"
  recoveryBusinessObjectIds := []
  knowledgeCutoff := 0
  reportGeneratedAt := 0
  versionBundle := versionBundle

def start : Attempts Bool where
  store := {}
  progress := fun _ => .requested case

theorem fresh : start.Fresh := ⟨rfl, fun _ => trivial⟩

/-- A transaction that ends in some way, of an execution that succeeded. -/
def act (signal : CommitSignal) : Act :=
  .proceed
    { signal
      observedAt := 1
      clock := fun _ => 1
      conclusion := .concluded [] [] ⟨"DONE", "done", [], none, none, false⟩ (.blocked "" false)
        ⟨0, 0, 0⟩ }

/-- Both attempts run the framework, and the commit of the first one is rolled back: it reads, the
other one commits and publishes, and only then it records. -/
def raced : List (Bool × Act) :=
  (List.replicate 3 (true, act .acknowledged) ++ List.replicate 3 (false, act .acknowledged)) ++
    [(true, act .rolledBack), (true, act .acknowledged), (false, act .acknowledged)]

/-- The commit of the first attempt is rolled back: it reads, and records that its event may not be
saved, before the other one commits with its acknowledgement lost, finds its event, and publishes
it. -/
def fenced : List (Bool × Act) :=
  (List.replicate 3 (true, act .acknowledged) ++ List.replicate 3 (false, act .acknowledged)) ++
    [(true, act .rolledBack), (true, act .acknowledged), (true, act .acknowledged),
      (false, act .lost)] ++ List.replicate 3 (false, act .acknowledged)

def denial : DecisionLedger × Phase :=
  let s := start.play (advance contracts) raced
  advance contracts (act .acknowledged) s.store (s.progress true)

theorem denial_spec : denial.2 = .answered (.unpublished "object" .unknown
    [commitFailure "HOST_RESULT_SAVED" true]) ∧ denial.1.originals "object" ≠ [] := by
  decide +kernel

theorem raced_spec :
    ((start.play (advance contracts) raced).progress true).unsaved? = some "object" := by
  decide +kernel

end SampleAttempts

/-- A fenced run of two attempts. -/
theorem sample_exactlyOnce :
    ExactlyOnce SampleAttempts.contracts SampleAttempts.start
      (SampleAttempts.start.play (advance SampleAttempts.contracts) SampleAttempts.fenced) :=
  run_exactlyOnce SampleAttempts.fresh
    (Shared.run_play (advance SampleAttempts.contracts) .refl (by decide +kernel))

/-- An attempt that another one overtakes between its read and its record answers that an event,
which is there, may not be saved. -/
theorem sample_deniesSavedEvent :
    ∃ s, Shared.Run (advance SampleAttempts.contracts) (fun _ _ _ => True) SampleAttempts.start s ∧
      ¬ ExactlyOnce SampleAttempts.contracts SampleAttempts.start s := by
  refine ⟨SampleAttempts.start.play (advance SampleAttempts.contracts) SampleAttempts.raced,
    Shared.run_play (advance SampleAttempts.contracts) .refl (by decide +kernel), fun h => ?_⟩
  obtain ⟨hanswer, hevent⟩ := SampleAttempts.denial_spec
  have hphase : ∀ answer, (SampleAttempts.start.play (advance SampleAttempts.contracts)
      SampleAttempts.raced).progress true ≠ .answered answer := by
    intro answer heq
    have hunsaved := SampleAttempts.raced_spec
    rw [heq] at hunsaved
    exact nomatch hunsaved
  exact hevent (h.denied true _ _ hphase hanswer (by decide))

end StockProfiler.Publication
