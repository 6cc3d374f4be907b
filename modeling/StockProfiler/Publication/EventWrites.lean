import StockProfiler.Publication.Progress
import Mathlib.Data.Fintype.Basic

/-!
# Attempts of any parties

Any number of attempts run in any order. An act adds at most one event, and an attempt denies an
event only after a fresh read did not find it: rightly so, unless another one commits it since.
-/

namespace StockProfiler.Publication

open CandidateSelection Qualification

variable {result : DecisionLedger × Phase}

/-- The ledger, and the attempts of some parties. -/
abbrev Attempts (π : Type*) := Shared π DecisionLedger Phase

/-- An attempt that has not begun. -/
def Phase.IsRequest : Phase → Prop
  | .requested _ | .requestedCorrection _ => True
  | _ => False

/-- Nothing is saved, and no attempt has begun. -/
structure Attempts.Fresh {π : Type*} (s : Attempts π) : Prop where
  store : s.store = {}
  requests : ∀ p, (s.progress p).IsRequest

/-- The rows of a ledger fit each other, and attempts hold on to what is saved. -/
structure Attempts.Fits {π : Type*} (contracts : HostContracts) (start s : Attempts π) : Prop where
  consistent : Consistent contracts s.store
  holds : ∀ p, (s.progress p).Holds contracts s.store
  serves : ∀ p, Phase.Serves (start.progress p) (s.progress p)

section Runs

variable {π : Type*} {contracts : HostContracts} {start s later : Attempts π}
  {allowed : Attempts π → π → Act → Prop}

theorem Attempts.Fresh.fits (h : start.Fresh) : start.Fits contracts start where
  consistent := by
    rw [h.store]
    exact ⟨List.nodup_nil, fun _ hmem => absurd hmem List.not_mem_nil,
      fun _ hmem => absurd hmem List.not_mem_nil, List.nodup_nil⟩
  holds := by
    intro p
    have hrequest := h.requests p
    cases hphase : start.progress p <;> rw [hphase] at hrequest <;> trivial
  serves := by
    intro p
    have hrequest := h.requests p
    cases hphase : start.progress p <;> rw [hphase] at hrequest <;>
      first | exact rfl | exact absurd hrequest id

variable [DecidableEq π]

/-- One act keeps everything fitting, and the ledger only grows. -/
theorem Attempts.Fits.next (h : start.Fits contracts s) (p : π) (act : Act) :
    s.store.Grows (s.next (advance contracts) p act).store ∧
      start.Fits contracts (s.next (advance contracts) p act) := by
  have hstep := progresses_advance h.consistent (h.holds p) (h.serves p) act
  refine ⟨hstep.grows, hstep.consistent, fun q => ?_, fun q => ?_⟩
  · by_cases hq : q = p
    · subst hq
      rw [Shared.next_progress_self, Shared.next_store]
      exact hstep.holds
    · rw [Shared.next_progress_of_ne _ _ _ _ hq, Shared.next_store]
      exact (h.holds q).grows hstep.grows
  · by_cases hq : q = p
    · subst hq
      rw [Shared.next_progress_self]
      exact hstep.serves
    · rw [Shared.next_progress_of_ne _ _ _ _ hq]
      exact h.serves q

/-- Everything fits in every state that a run reaches, and the ledger has grown. -/
theorem Attempts.Fits.run (h : start.Fits contracts s)
    (hrun : Shared.Run (advance contracts) allowed s later) :
    s.store.Grows later.store ∧ start.Fits contracts later := by
  induction hrun with
  | refl => exact ⟨.refl _, h⟩
  | step _ _ ih =>
    obtain ⟨hgrows, hnext⟩ := ih.2.next _ _
    exact ⟨ih.1.trans hgrows, hnext⟩

end Runs

/-- The business object whose event an attempt is about to record as not saved. -/
def Phase.unsaved? : Phase → Option String
  | .unsaved fact _ _ => some fact.businessObjectId
  | _ => none

/-- The business object whose event a transaction may commit: its row is written, and its commit
is not rolled back. -/
def Act.committed? (act : Act) (ledger : DecisionLedger) (phase : Phase) : Option String :=
  match act, phase with
  | .proceed input, .executing case =>
    match input.conclusion with
    | .refused _ => none
    | .concluded .. =>
      if input.writeFails ∨ input.signal = .rolledBack then none else some case.businessObjectId
  | .proceed input, .requestedCorrection case =>
    if input.writeFails ∨ input.signal = .rolledBack then none
    else ledger.resolveBusinessObjectId case
  | _, _ => none

/-- No transaction commits an event of a business object while another attempt, which did not find
one, is about to record so. -/
def Fenced {π : Type*} (s : Attempts π) (p : π) (act : Act) : Prop :=
  ∀ q, q ≠ p → ∀ id ∈ (s.progress q).unsaved?, act.committed? s.store (s.progress p) ≠ some id

instance {π : Type*} [DecidableEq π] [Fintype π] (s : Attempts π) (p : π) (act : Act) :
    Decidable (Fenced s p act) := by
  unfold Fenced
  infer_instance

/-- Whether an attempt says of an event that it is not saved, or may not be. -/
def Phase.denies : Phase → Bool
  | .unsaved .. => true
  | .answered (.unpublished _ status _) | .answered (.correctionFailed _ status) =>
    status ∈ [.failed, .unknown]
  | _ => false

/-- A transaction adds no event, and denies none. -/
structure KeepsEvents (ledger : DecisionLedger) (result : DecisionLedger × Phase) : Prop where
  events : result.1.events = ledger.events
  denies : result.2.denies = false

/-- A transaction denies no event, and adds at most one, of an object that it may commit. -/
structure AddsEvent (committed : Option String) (ledger : DecisionLedger)
    (result : DecisionLedger × Phase) : Prop where
  events : result.1.events = ledger.events ∨
    ∃ fact, result.1.events = ledger.events ++ [fact] ∧ committed = some fact.businessObjectId
  denies : result.2.denies = false

section Events

variable {contracts : HostContracts} {ledger after opened : DecisionLedger} {phase : Phase}
  {input : TransactionInput} {fact : DecisionEventFact} {committed : Option String}

theorem KeepsEvents.addsEvent (h : KeepsEvents ledger result) : AddsEvent committed ledger result :=
  ⟨.inl h.events, h.denies⟩

theorem keepsEvents_close (hevents : after.events = ledger.events) (hdenies : phase.denies = false)
    (signal : CommitSignal) : KeepsEvents ledger (close signal ledger after phase) := by
  cases signal with
  | acknowledged => exact ⟨hevents, hdenies⟩
  | lost => exact ⟨hevents, rfl⟩
  | rolledBack => exact ⟨rfl, rfl⟩

theorem events_ensureBusinessObject {case : FrozenDecisionCase}
    (h : ledger.ensureBusinessObject contracts case = some after) :
    after.events = ledger.events := by
  rcases ensureBusinessObject_spec h with rfl | ⟨-, rfl⟩
  · rfl
  · rfl

theorem keepsEvents_persistMapping (case : FrozenDecisionCase) :
    KeepsEvents ledger (persistMapping contracts ledger input case) := by
  unfold persistMapping
  split
  · exact ⟨rfl, rfl⟩
  · split
    · split
      · exact ⟨rfl, rfl⟩
      · exact ⟨rfl, rfl⟩
      · split
        · exact ⟨rfl, rfl⟩
        · rename_i hensure
          exact keepsEvents_close (events_ensureBusinessObject hensure) rfl _
    · exact ⟨rfl, rfl⟩

theorem addsEvent_continueWith {id : String} {absent : DecisionLedger × Phase}
    (h : AddsEvent committed ledger absent) :
    AddsEvent committed ledger (continueWith contracts ledger id absent) := by
  unfold continueWith
  split
  · exact ⟨.inl rfl, rfl⟩
  · exact ⟨.inl rfl, rfl⟩
  · exact ⟨.inl rfl, rfl⟩
  · exact h

theorem keepsEvents_freezeExecution (id : String) :
    KeepsEvents ledger (freezeExecution contracts ledger input id) := by
  unfold freezeExecution
  split
  · exact ⟨rfl, rfl⟩
  · split
    · exact ⟨rfl, rfl⟩
    · rename_i ledger' hensure
      have hevents := events_ensureBusinessObject hensure
      split
      · exact keepsEvents_close hevents rfl _
      · exact keepsEvents_close ((ledger'.addsStages_recordAll _).events.trans hevents) rfl _

theorem denies_committedPhase (fact : DecisionEventFact) :
    (committedPhase fact).denies = false := by
  unfold committedPhase
  split
  · rfl
  · rfl

theorem addsEvent_commitEvent {written : DecisionLedger} (hwritten : written.events = ledger.events)
    (stages : List StageResult) (hcommitted : ¬(input.writeFails ∨ input.signal = .rolledBack) →
      committed = some fact.businessObjectId) :
    AddsEvent committed ledger (commitEvent ledger input written fact stages) := by
  unfold commitEvent
  split
  · split
    · exact (keepsEvents_close hwritten (denies_committedPhase fact) _).addsEvent
    · exact ⟨.inl rfl, rfl⟩
  · split
    · exact ⟨.inl rfl, rfl⟩
    · rename_i hwrites
      have hadded : ({ written with events := written.events ++ [fact] } : DecisionLedger).events =
          ledger.events ++ [fact] := by
        rw [← hwritten]
      cases hsignal : input.signal with
      | acknowledged =>
        refine ⟨.inr ⟨fact, hadded, hcommitted ?_⟩, denies_committedPhase fact⟩
        rw [hsignal]
        exact not_or.mpr ⟨hwrites, nofun⟩
      | lost =>
        refine ⟨.inr ⟨fact, hadded, hcommitted ?_⟩, rfl⟩
        rw [hsignal]
        exact not_or.mpr ⟨hwrites, nofun⟩
      | rolledBack => exact ⟨.inl rfl, rfl⟩

theorem denies_closedAnswer (ledger : DecisionLedger) (fact : DecisionEventFact) :
    (Phase.answered (closedAnswer ledger fact)).denies = false := by
  unfold closedAnswer
  split
  · rfl
  · rfl

theorem denies_reportAnswer (fact : DecisionEventFact) (report : FormalReport) :
    (Phase.answered (reportAnswer fact report)).denies = false := by
  unfold reportAnswer
  split
  · rfl
  · rfl

theorem keepsEvents_recordPublication (h : opened.events = ledger.events) :
    KeepsEvents ledger (recordPublication contracts ledger input opened fact) := by
  unfold recordPublication
  dsimp only
  split
  · exact ⟨rfl, rfl⟩
  · exact ⟨rfl, rfl⟩
  · split
    · rename_i report _
      exact keepsEvents_close ((opened.addsStages_recordStageResult _ _).events.trans h)
        (denies_reportAnswer fact report) _
    · exact ⟨rfl, rfl⟩

theorem keepsEvents_confirmPublication (h : opened.events = ledger.events) :
    KeepsEvents ledger (confirmPublication contracts ledger input opened fact) := by
  unfold confirmPublication
  dsimp only
  split
  · exact ⟨rfl, rfl⟩
  · exact ⟨rfl, rfl⟩
  · exact keepsEvents_recordPublication h

/-- Publishing a report writes no event. -/
theorem keepsEvents_publishReport (fact : DecisionEventFact) :
    KeepsEvents ledger (publishReport contracts ledger input fact) := by
  have hopened := (ledger.addsStages_ensureEventStageResults fact input.clock).events
  unfold publishReport
  dsimp only
  split
  · exact keepsEvents_close
      ((DecisionLedger.addsStages_recordStageResult _ _ _).events.trans hopened)
      (denies_closedAnswer _ fact) _
  · split
    · exact ⟨rfl, rfl⟩
    · split
      · exact ⟨rfl, rfl⟩
      · split
        · exact keepsEvents_confirmPublication hopened
        · exact ⟨rfl, rfl⟩
      · split
        · exact ⟨rfl, rfl⟩
        · split
          · exact ⟨hopened, rfl⟩
          · exact ⟨hopened, rfl⟩
          · exact ⟨rfl, rfl⟩

theorem keepsEvents_verifyReport (fact : DecisionEventFact) :
    KeepsEvents ledger (verifyReport contracts ledger fact) := by
  unfold verifyReport
  split
  · exact ⟨rfl, rfl⟩
  · exact ⟨rfl, rfl⟩
  · split
    · exact ⟨rfl, rfl⟩
    · exact ⟨rfl, rfl⟩

theorem keepsEvents_recordClosed (fact : DecisionEventFact) (reason : String)
    (availabilityFailure : Option CandidateAvailabilityFailure) :
    KeepsEvents ledger
      (recordClosed contracts ledger input fact reason availabilityFailure) := by
  have hafter : ((ledger.ensureEventStageResults fact input.clock).recordStageResult
      (DecisionLedger.stageRow fact (some fact.decisionEventId) input.clock
        (publicationFailureStage reason availabilityFailure)) true).events = ledger.events :=
    (DecisionLedger.addsStages_recordStageResult _ _ _).events.trans
      (ledger.addsStages_ensureEventStageResults fact input.clock).events
  unfold recordClosed
  dsimp only
  split
  · split
    · exact ⟨rfl, rfl⟩
    · exact keepsEvents_close hafter (denies_closedAnswer _ fact) _
    · rename_i report _
      split
      · exact keepsEvents_close hafter (denies_reportAnswer fact report) _
      · exact keepsEvents_close hafter (denies_closedAnswer _ fact) _
  · exact keepsEvents_close hafter (denies_closedAnswer _ fact) _

theorem addsEvent_correct (h : Consistent contracts ledger) (case : FrozenDecisionCase) :
    AddsEvent (Act.committed? (.proceed input) ledger (.requestedCorrection case)) ledger
      (correct contracts ledger input case) := by
  unfold correct
  split
  · exact ⟨.inl rfl, rfl⟩
  · rename_i id hresolve
    split
    · rename_i original report horiginal _
      obtain ⟨hmem, rfl, -⟩ :=
        DecisionLedger.mem_originals.mp (DecisionLedger.mem_of_oneOrNone horiginal)
      split
      · exact ⟨.inl rfl, rfl⟩
      · rename_i fact _
        exact (keepsEvents_publishReport fact).addsEvent
      · refine addsEvent_commitEvent rfl _ fun hwrites => ?_
        show (if input.writeFails ∨ input.signal = .rolledBack then none
          else ledger.resolveBusinessObjectId case) = some original.case.businessObjectId
        rw [if_neg hwrites, hresolve, (h.attempted original hmem).case_eq]
    · exact ⟨.inl rfl, rfl⟩

theorem addsEvent_commitFrameworkResult (case : FrozenDecisionCase) :
    AddsEvent (Act.committed? (.proceed input) ledger (.executing case)) ledger
      (commitFrameworkResult contracts ledger input case) := by
  unfold commitFrameworkResult
  split
  · exact (keepsEvents_close (ledger.addsStages_recordAll _).events rfl _).addsEvent
  · rename_i hconclusion
    refine addsEvent_commitEvent (ledger.addsStages_recordAll _).events _ fun hwrites => ?_
    simp only [Act.committed?, hconclusion, if_neg hwrites]
    rfl

/-- A fresh read keeps the ledger, and denies only an event that it does not find. -/
theorem verifyEvent_spec (ledger : DecisionLedger) (fact : DecisionEventFact) (uncertain : Bool)
    (stages : List StageResult) :
    KeepsEvents ledger (verifyEvent ledger fact uncertain stages) ∨
      ledger.event? fact.decisionEventId = none ∧
        verifyEvent ledger fact uncertain stages = (ledger, .unsaved fact uncertain stages) := by
  unfold verifyEvent
  split
  · rename_i hnone
    exact .inr ⟨hnone, rfl⟩
  · split
    · exact .inl ⟨rfl, denies_committedPhase fact⟩
    · exact .inl ⟨rfl, rfl⟩

/-- The answer that an event is not saved adds none, and is about its object. -/
theorem recordUnsaved_spec (ledger : DecisionLedger) (input : TransactionInput)
    (fact : DecisionEventFact) (uncertain : Bool) (stages : List StageResult) :
    (recordUnsaved ledger input fact uncertain stages).1.events = ledger.events ∧
      ((recordUnsaved ledger input fact uncertain stages).2 = .stopped ∨
        (fact.correctsEventId = none ∧ ∃ status stages',
          (recordUnsaved ledger input fact uncertain stages).2 =
            .answered (.unpublished fact.businessObjectId status stages')) ∨
        (fact.correctsEventId ≠ none ∧ ∃ status,
          (recordUnsaved ledger input fact uncertain stages).2 =
            .answered (.correctionFailed fact.businessObjectId status))) := by
  have hclose : ∀ {after : DecisionLedger} {phase : Phase}, after.events = ledger.events →
      ((close input.signal ledger after phase).1.events = ledger.events ∧
        ((close input.signal ledger after phase).2 = .stopped ∨
          (close input.signal ledger after phase).2 = phase)) := by
    intro after phase hevents
    cases input.signal with
    | acknowledged => exact ⟨hevents, .inr rfl⟩
    | lost => exact ⟨hevents, .inl rfl⟩
    | rolledBack => exact ⟨rfl, .inl rfl⟩
  unfold recordUnsaved
  dsimp only
  split
  · rename_i hnone
    obtain ⟨hevents, hphase⟩ := hclose
      ((DecisionLedger.addsStages_recordStageResult _ _ _).events.trans
        (ledger.addsStages_recordAll _).events)
    exact ⟨hevents, hphase.imp_right fun hphase => .inl ⟨hnone, _, _, hphase⟩⟩
  · rename_i hsome
    obtain ⟨hevents, hphase⟩ := hclose (ledger.addsStages_recordStageResult _ _).events
    exact ⟨hevents, hphase.imp_right fun hphase => .inr ⟨hsome, _, hphase⟩⟩

/-- An act adds at most one event, and an attempt denies one only after it did not find it. -/
theorem advance_spec (h : Consistent contracts ledger) (act : Act) (phase : Phase) :
    AddsEvent (act.committed? ledger phase) ledger (advance contracts act ledger phase) ∨
      advance contracts act ledger phase = (ledger, phase) ∨
      (∃ fact uncertain stages, phase = .unverified fact uncertain stages ∧
        ledger.event? fact.decisionEventId = none ∧
        advance contracts act ledger phase = (ledger, .unsaved fact uncertain stages)) ∨
      ∃ fact uncertain stages input, phase = .unsaved fact uncertain stages ∧
        advance contracts act ledger phase =
          recordUnsaved ledger input fact uncertain stages := by
  cases act with
  | stop => exact .inl ⟨.inl rfl, rfl⟩
  | record rows input =>
    cases phase with
    | executing case =>
      exact .inl (keepsEvents_close (ledger.addsStages_recordAll _).events rfl _).addsEvent
    | _ => exact .inr (.inl rfl)
  | proceed input =>
    cases phase with
    | requested case => exact .inl (keepsEvents_persistMapping case).addsEvent
    | mapped id => exact .inl (addsEvent_continueWith ⟨.inl rfl, rfl⟩)
    | unanswered id =>
      exact .inl (addsEvent_continueWith (keepsEvents_freezeExecution id).addsEvent)
    | executing case => exact .inl (addsEvent_continueWith (addsEvent_commitFrameworkResult case))
    | requestedCorrection case => exact .inl (addsEvent_correct h case)
    | unverified fact uncertain stages =>
      rcases verifyEvent_spec ledger fact uncertain stages with hkeeps | ⟨hnone, heq⟩
      · exact .inl hkeeps.addsEvent
      · exact .inr (.inr (.inl ⟨fact, uncertain, stages, rfl, hnone, heq⟩))
    | unsaved fact uncertain stages =>
      exact .inr (.inr (.inr ⟨fact, uncertain, stages, input, rfl, rfl⟩))
    | saved id =>
      refine .inl ?_
      show AddsEvent _ ledger (proceed contracts ledger input (.saved id))
      unfold proceed
      dsimp only
      split
      · exact ⟨.inl rfl, rfl⟩
      · rename_i fact _
        exact (keepsEvents_publishReport fact).addsEvent
      · exact ⟨.inl rfl, rfl⟩
    | publishing fact => exact .inl (keepsEvents_publishReport fact).addsEvent
    | unverifiedReport fact => exact .inl (keepsEvents_verifyReport fact).addsEvent
    | reported fact => exact .inl (keepsEvents_confirmPublication rfl).addsEvent
    | closing fact reason availabilityFailure =>
      exact .inl (keepsEvents_recordClosed fact reason availabilityFailure).addsEvent
    | answered answer => exact .inr (.inl rfl)
    | stopped => exact .inr (.inl rfl)

end Events

/-- The object of a fact has no event of its kind: no original, or no correction. -/
def DecisionEventFact.Absent (ledger : DecisionLedger) (fact : DecisionEventFact) : Prop :=
  ∀ other ∈ ledger.events, other.businessObjectId = fact.businessObjectId →
    other.correctsEventId.isNone ≠ fact.correctsEventId.isNone

/-- An attempt that denies an event is right. -/
def Phase.DeniesRightly (ledger : DecisionLedger) : Phase → Prop
  | .unsaved fact _ _ => fact.Absent ledger
  | _ => True

section Absent

variable {π : Type*} [DecidableEq π] {contracts : HostContracts} {start s : Attempts π}
  {ledger : DecisionLedger} {fact : DecisionEventFact}

/-- A fact whose identity finds no event is of an object without one of its kind. -/
theorem absent_of_event? (h : Consistent contracts ledger) (hfact : Attempted contracts ledger fact)
    (hnone : ledger.event? fact.decisionEventId = none) : fact.Absent ledger := by
  intro other hother hobject hkind
  have hid : other.decisionEventId = fact.decisionEventId := by
    cases hcorrects : fact.correctsEventId with
    | none =>
      rw [hcorrects] at hkind
      obtain ⟨hmapping, hid⟩ := hfact.original hcorrects
      obtain ⟨hmapping', hid'⟩ :=
        (h.attempted other hother).original (Option.isNone_iff_eq_none.mp hkind)
      rw [hobject, hmapping] at hmapping'
      rw [hid, hid', Option.some.inj hmapping']
    | some original =>
      cases hother' : other.correctsEventId with
      | none =>
        rw [hcorrects, hother'] at hkind
        exact nomatch hkind
      | some original' =>
        obtain ⟨hid, e, he, heid, henone, heobject⟩ := hfact.correction original hcorrects
        obtain ⟨hid', e', he', heid', henone', heobject'⟩ :=
          (h.attempted other hother).correction original' hother'
        obtain rfl := h.eq_of_original he he' henone henone'
          (heobject.trans (hobject.symm.trans heobject'.symm))
        rw [hid, hid', hobject, ← heid, heid']
  exact DecisionLedger.event?_eq_none hnone other hother hid

theorem DecisionEventFact.Absent.addsEvent {committed : Option String} (h : fact.Absent ledger)
    (hadds : AddsEvent committed ledger result) (hfenced : committed ≠ some fact.businessObjectId) :
    fact.Absent result.1 := by
  intro other hother hobject
  rcases hadds.events with hevents | ⟨added, hevents, hcommitted⟩
  · exact h other (hevents ▸ hother) hobject
  · rw [hevents] at hother
    rcases List.mem_append.mp hother with hother | hother
    · exact h other hother hobject
    · obtain rfl := List.mem_singleton.mp hother
      exact absurd (hobject ▸ hcommitted) hfenced

theorem DecisionEventFact.Absent.congr {after : DecisionLedger} (h : fact.Absent ledger)
    (hevents : after.events = ledger.events) : fact.Absent after := by
  intro other hother
  exact h other (hevents ▸ hother)

/-- An act after which an attempt denies an event is one that did not find it. -/
theorem deniesRightly_next (hfits : start.Fits contracts s)
    (hdenies : ∀ q, (s.progress q).DeniesRightly s.store) {p : π} {act : Act}
    (hfenced : Fenced s p act) (q : π) :
    ((s.next (advance contracts) p act).progress q).DeniesRightly
      (s.next (advance contracts) p act).store := by
  have hspec := advance_spec hfits.consistent act (s.progress p)
  by_cases hq : q = p
  · subst hq
    rw [Shared.next_progress_self, Shared.next_store]
    rcases hspec with hadds | hsame | ⟨fact, _, _, hphase, hnone, heq⟩ |
      ⟨fact, _, _, input, _, heq⟩
    · cases hresult : (advance contracts act s.store (s.progress q)).2 with
      | unsaved fact uncertain stages =>
        have hfalse := hadds.denies
        rw [hresult] at hfalse
        exact nomatch hfalse
      | _ => trivial
    · rw [hsame]
      exact hdenies q
    · rw [heq]
      have hholds := hfits.holds q
      rw [hphase] at hholds
      exact absent_of_event? hfits.consistent hholds hnone
    · rw [heq]
      rcases (recordUnsaved_spec s.store input fact _ _).2 with hphase | ⟨-, _, _, hphase⟩ |
        ⟨-, _, hphase⟩
      all_goals
        rw [hphase]
        trivial
  · rw [Shared.next_progress_of_ne _ _ _ _ hq, Shared.next_store]
    have hother := hdenies q
    have hfence := hfenced q hq
    cases hphase : s.progress q with
    | unsaved fact uncertain stages =>
      rw [hphase] at hother hfence
      rcases hspec with hadds | hsame | ⟨_, _, _, _, _, heq⟩ | ⟨fact', _, _, input, _, heq⟩
      · exact DecisionEventFact.Absent.addsEvent hother hadds (hfence _ rfl)
      · rw [hsame]
        exact hother
      · rw [heq]
        exact hother
      · rw [heq]
        exact DecisionEventFact.Absent.congr hother (recordUnsaved_spec _ _ _ _ _).1
    | _ => trivial

end Absent

end StockProfiler.Publication
