import StockProfiler.CandidateSelection.GreedyCohort
import StockProfiler.CandidateSelection.ScreeningReplay

/-!
# Selections on a replayed screening

A selection replays the screening of its own cutoff and industries. What it ranks was replayed, and
the order of the screened observations does not reach the cohort.
-/

namespace StockProfiler.CandidateSelection

section Screened

variable {ctx : DecimalContext} {hashes : ContentHashes} {zone : MarketZone}
  {screening : Option ScreeningSnapshot} {request : ReplayRequest} {input : SelectionInput}
  {outcome : SelectionOutcome} {audit audit' : List ScreeningContribution}

/-- The replay of a selection is of its own cutoff and industries. -/
def SelectionInput.replayRequest (input : SelectionInput) (request : ReplayRequest) :
    ReplayRequest :=
  { request with
    cutoff := input.command.cutoffAt
    industries := Dict.ofLast (input.command.rows.map fun row => (row.securityId, row.industry)) }

/-- A selection whose scores are replayed from the snapshot of its command, if there is one. -/
def SelectionInput.screened (input : SelectionInput) (ctx : DecimalContext)
    (hashes : ContentHashes) (zone : MarketZone) (screening : Option ScreeningSnapshot)
    (request : ReplayRequest) : SelectionInput :=
  { input with replay := screening.map fun snapshot =>
      replayScreening ctx hashes zone snapshot (input.replayRequest request) }

/-- The replay has a score for a row, and it is the one that the row states. -/
def Replayed (audit : List ScreeningContribution) (row : ScreeningRow) : Prop :=
  ∃ score, (Dict.ofLast (audit.map fun row => (row.securityId, row))).get? row.securityId =
      some score ∧
    row.positiveScore = some score.positiveScore ∧ row.terminalScore = some score.terminalScore

/-- All items have results, none of them bad, where each of them has one that is not. -/
theorem exists_mapM_zip {α β : Type} {f : α → Option β} {bad : α × β → Bool} {items : List α} :
    (∃ results, items.mapM f = some results ∧ (items.zip results).any bad = false) ↔
      ∀ item ∈ items, ∃ result, f item = some result ∧ bad (item, result) = false := by
  induction items with
  | nil => exact ⟨nofun, fun _ => ⟨[], rfl, rfl⟩⟩
  | cons item items ih =>
    rw [List.forall_mem_cons, ← ih]
    constructor
    · rintro ⟨results, hresults, hnone⟩
      rw [List.mapM_cons] at hresults
      obtain ⟨result, hresult, hrest⟩ := bind_eq_some.mp hresults
      obtain ⟨others, hothers, heq⟩ := bind_eq_some.mp hrest
      cases heq
      rw [List.zip_cons_cons, List.any_cons, Bool.or_eq_false_iff] at hnone
      exact ⟨⟨result, hresult, hnone.1⟩, others, hothers, hnone.2⟩
    · rintro ⟨⟨result, hresult, hgood⟩, others, hothers, hnone⟩
      refine ⟨result :: others, ?_, ?_⟩
      · rw [List.mapM_cons, hresult, hothers]
        rfl
      · rw [List.zip_cons_cons, List.any_cons, hgood, hnone]
        rfl

/-- A replay stands where nothing failed and every row states what was replayed for it. -/
theorem replayVerdict_eq_some {command : SelectionCommand} {failures : List String} :
    replayVerdict command (some (audit, failures)) = some (audit', []) ↔
      failures = [] ∧ audit' = audit ∧ ∀ row ∈ command.rows, Replayed audit row := by
  unfold replayVerdict
  dsimp only
  by_cases hfailures : failures = []
  · have hrows : (∀ row ∈ command.rows, Replayed audit row) ↔ ∃ scores,
        command.rows.mapM (fun row => (Dict.ofLast (audit.map fun row =>
          (row.securityId, row))).get? row.securityId) = some scores ∧
        (command.rows.zip scores).any (fun entry =>
          entry.1.positiveScore ≠ some entry.2.positiveScore ∨
            entry.1.terminalScore ≠ some entry.2.terminalScore) = false := by
      rw [exists_mapM_zip]
      simp only [Replayed, decide_eq_false_iff_not, not_or, not_not]
    rw [if_neg (not_not.mpr hfailures), hrows]
    constructor
    · intro h
      obtain ⟨scores, hscores, hresult⟩ := bind_eq_some.mp h
      obtain ⟨haudit, hmatch⟩ := Prod.mk.inj (Option.some.inj hresult)
      refine ⟨hfailures, haudit.symm, scores, hscores, Bool.eq_false_iff.mpr fun hany => ?_⟩
      exact absurd ((if_pos hany).symm.trans hmatch) (List.cons_ne_nil _ _)
    · rintro ⟨-, rfl, scores, hscores, hnone⟩
      refine bind_eq_some.mpr ⟨scores, hscores, congrArg some (Prod.ext rfl ?_)⟩
      exact if_neg (Bool.eq_false_iff.mp hnone)
  · rw [if_pos hfailures]
    refine iff_of_false (fun h => hfailures (Prod.mk.inj (Option.some.inj h)).2) ?_
    exact fun h => hfailures h.1

/-- The gates are passed where nothing before the ranking failed. -/
theorem gate_eq_ok : input.gate = some (.ok audit) ↔ input.prerequisiteState = "SUCCEEDED" ∧
    input.failures = [] ∧ replayVerdict input.command input.replay = some (audit, []) := by
  unfold SelectionInput.gate
  dsimp only
  split
  · rename_i hstate
    exact iff_of_false (fun h => by cases h) fun h => hstate h.1
  · rename_i hstate
    split
    · rename_i hfailures
      exact iff_of_false (fun h => by cases h) fun h => hfailures h.2.1
    · rename_i hfailures
      rw [not_not] at hstate hfailures
      simp only [hstate, hfailures, true_and]
      cases hverdict : replayVerdict input.command input.replay with
      | none => exact iff_of_false (fun h => by cases h) fun h => by cases h
      | some verdict =>
        obtain ⟨found, reasons⟩ := verdict
        cases reasons with
        | nil =>
          refine ⟨fun h => ?_, fun h => ?_⟩
          · exact congrArg (fun audit => some (audit, [])) (Except.ok.inj (Option.some.inj h))
          · obtain rfl := (Prod.mk.inj (Option.some.inj h)).1
            rfl
        | cons reason reasons =>
          refine iff_of_false (fun h => ?_) fun h => ?_
          · cases Option.some.inj h
          · cases (Prod.mk.inj (Option.some.inj h)).2

/-- A selection that ranks its rows passed the gates. -/
theorem exists_gate (h : freezeSelection ctx input = some outcome)
    (hranked : outcome.disposition = .frozen ∨ outcome.disposition = .abstained) :
    ∃ audit, input.gate = some (.ok audit) := by
  rw [freezeSelection] at h
  obtain ⟨verdict, hgate, h⟩ := bind_eq_some.mp h
  cases verdict with
  | ok audit => exact ⟨audit, hgate⟩
  | error refused =>
    cases h
    exfalso
    unfold SelectionInput.gate at hgate
    dsimp only at hgate
    split at hgate
    · obtain rfl := Except.error.inj (Option.some.inj hgate)
      simp only [SelectionOutcome.refused] at hranked
      split at hranked <;> simp at hranked
    · split at hgate
      · obtain rfl := Except.error.inj (Option.some.inj hgate)
        simp [SelectionOutcome.refused] at hranked
      · obtain ⟨⟨found, reasons⟩, -, hgate⟩ := bind_eq_some.mp hgate
        dsimp only at hgate
        split at hgate
        · obtain rfl := Except.error.inj (Option.some.inj hgate)
          simp only [SelectionOutcome.refused] at hranked
          split at hranked <;> simp at hranked
        · cases Option.some.inj hgate

/-- A selection hands its audit on, and reads nothing else of it. -/
theorem selectCohort_audit (command : SelectionCommand) : selectCohort ctx command audit =
    (selectCohort ctx command []).map fun outcome => { outcome with screeningAudit := audit } := by
  unfold selectCohort
  dsimp only
  cases (SelectionConstraints.ofCommand command).scan []
    ((rankingOf ctx command.policy command.rows).map (·.securityId)) <;> rfl

/-- Replays of different securities are read alike in every order. -/
theorem Replayed.reordered {row : ScreeningRow} (h : Replayed audit row)
    (hids : (audit.map (·.securityId)).Nodup) (horder : Reordered SameContribution audit audit') :
    Replayed audit' row := by
  obtain ⟨score, hscore, hpositive, hterminal⟩ := h
  obtain ⟨found, hfound, heq⟩ := List.mem_map.mp (Dict.mem_ofLast (Dict.mem_of_get? hscore))
  obtain ⟨hid, rfl⟩ := Prod.mk.inj heq
  obtain ⟨other, hother, hsame⟩ := horder.exists_of_mem hfound
  have hkeys : ((audit'.map fun row => (row.securityId, row)).map Prod.fst).Nodup := by
    rw [List.map_map]
    exact (horder.map_perm fun _ _ hsame => hsame.securityId).nodup_iff.mp hids
  refine ⟨other, ?_, hpositive.trans (congrArg some hsame.positiveScore),
    hterminal.trans (congrArg some hsame.terminalScore)⟩
  rw [Dict.ofLast_of_nodup hkeys, ← hid, hsame.securityId]
  exact Dict.get?_of_mem hkeys (List.mem_map_of_mem hother)

/-- The gates of a screened selection are passed on the audit of an accepted replay. -/
theorem gate_screened : (input.screened ctx hashes zone screening request).gate =
    some (.ok audit) ↔ input.prerequisiteState = "SUCCEEDED" ∧ input.failures = [] ∧
    ∃ snapshot, screening = some snapshot ∧
      replayScreening ctx hashes zone snapshot (input.replayRequest request) = (audit, []) ∧
      ∀ row ∈ input.command.rows, Replayed audit row := by
  rw [gate_eq_ok]
  refine and_congr Iff.rfl (and_congr Iff.rfl ?_)
  cases screening with
  | none =>
    -- Without a snapshot the verdict is that one is required.
    refine iff_of_false (fun h => ?_) fun ⟨_, h, _⟩ => Option.some_ne_none _ h.symm
    exact List.cons_ne_nil _ _ (Prod.mk.inj (Option.some.inj h)).2
  | some snapshot =>
    obtain ⟨⟨audits, failures⟩, hreplay⟩ :
        ∃ replay, replayScreening ctx hashes zone snapshot (input.replayRequest request) = replay :=
      ⟨_, rfl⟩
    have hverdict : (input.screened ctx hashes zone (some snapshot) request).replay =
        some (audits, failures) := congrArg some hreplay
    rw [hverdict]
    refine replayVerdict_eq_some.trans ⟨?_, ?_⟩
    · rintro ⟨rfl, rfl, hrows⟩
      exact ⟨snapshot, rfl, hreplay, hrows⟩
    · rintro ⟨_, heq, haccepted, hrows⟩
      cases heq
      obtain ⟨rfl, rfl⟩ := Prod.mk.inj (hreplay.symm.trans haccepted)
      exact ⟨rfl, rfl, hrows⟩

/-- **What is ranked was replayed.** A selection ranks its rows only when it has a screening and the
replay of it was accepted. Its audit is that replay, and every row states the scores that a security
of its own was replayed to. -/
theorem freezeSelection_replayed
    (h : freezeSelection ctx (input.screened ctx hashes zone screening request) = some outcome)
    (hranked : outcome.disposition = .frozen ∨ outcome.disposition = .abstained) :
    ∃ snapshot, screening = some snapshot ∧
      replayScreening ctx hashes zone snapshot (input.replayRequest request) =
        (outcome.screeningAudit, []) ∧
      ∀ row ∈ input.command.rows, ∃ observation ∈ snapshot.observations,
        observation.securityId = row.securityId ∧
        row.positiveScore = some (auditOf ctx snapshot observation).positiveScore ∧
        row.terminalScore = some (auditOf ctx snapshot observation).terminalScore := by
  obtain ⟨audit, hgate⟩ := exists_gate h hranked
  obtain ⟨-, -, snapshot, hscreening, hreplay, hrows⟩ := gate_screened.mp hgate
  have haudit : outcome.screeningAudit = audit := by
    rw [freezeSelection_of_gate hgate, selectCohort_audit, Option.map_eq_some_iff] at h
    obtain ⟨_, -, rfl⟩ := h
    rfl
  refine ⟨snapshot, hscreening, haudit ▸ hreplay, fun row hrow => ?_⟩
  obtain ⟨score, hscore, hsame⟩ := hrows row hrow
  obtain ⟨found, hfound, heq⟩ := List.mem_map.mp (Dict.mem_ofLast (Dict.mem_of_get? hscore))
  obtain ⟨hid, rfl⟩ := Prod.mk.inj heq
  rw [(replayScreening_eq_iff.mp hreplay).2.2.2] at hfound
  obtain ⟨observation, hobservation, rfl⟩ := List.mem_map.mp hfound
  exact ⟨observation, hobservation, hid, hsame⟩

/-- **The order of the screening decides nothing.** A selection that ranks its rows ends alike when
the screened observations, and the signals of each, come in another order: its audit then has the
same rows in another order, and each of them its signals in another order. -/
theorem freezeSelection_reordered {snapshot : ScreeningSnapshot}
    {others : List ScreeningObservation}
    (h : freezeSelection ctx (input.screened ctx hashes zone (some snapshot) request) =
      some outcome) (hranked : outcome.disposition = .frozen ∨ outcome.disposition = .abstained)
    (horder : Reordered SameRow snapshot.observations others) :
    ∃ audit, Reordered SameContribution outcome.screeningAudit audit ∧
      freezeSelection ctx (input.screened ctx hashes zone
        (some { snapshot with observations := others }) request) =
      some { outcome with screeningAudit := audit } := by
  obtain ⟨audit, hgate⟩ := exists_gate h hranked
  obtain ⟨hstate, hdata, _, heq, hreplay, hrows⟩ := gate_screened.mp hgate
  cases heq
  obtain ⟨reordered, hother, hsame⟩ := reordered_audits hreplay horder
  have hids : (audit.map (·.securityId)).Nodup := by
    rw [(replayScreening_eq_iff.mp hreplay).2.2.2, List.map_map]
    exact (replayScreening_eq_iff.mp hreplay).2.2.1.nodup
  have hgate' := gate_screened.mpr ⟨hstate, hdata, _, rfl, hother,
    fun row hrow => (hrows row hrow).reordered hids hsame⟩
  rw [freezeSelection_of_gate hgate, selectCohort_audit, Option.map_eq_some_iff] at h
  obtain ⟨selected, hselected, rfl⟩ := h
  refine ⟨reordered, hsame, ?_⟩
  rw [freezeSelection_of_gate hgate', selectCohort_audit]
  exact congrArg (Option.map _) hselected

end Screened

namespace SampleScreened

def rows : List ScreeningRow :=
  [SampleCohort.row "first" "industry" 10 (1 / 2) [0, 1 / 10],
    SampleCohort.row "second" "industry" 20 2 [0, 1 / 5]]

/-- A selection of the two securities of the sample screening. -/
def input : SelectionInput where
  command := ⟨SampleScreening.cutoff, .synthetic, "U", SampleCohort.policy, rows⟩
  source := some ⟨SampleScreening.cutoff, .synthetic, some [⟨1, some 5⟩, ⟨2, some 9⟩]⟩
  universeOutcome := some ⟨.frozen, ["first", "second"]⟩
  deliveryFailures := []
  replay := none

/-- The selection on a snapshot that observes some rows. -/
def frozen (observations : List ScreeningObservation) : Option SelectionOutcome :=
  freezeSelection .exact (input.screened .exact SampleScreening.hashes ⟨id, id⟩
    (some { SampleScreening.snapshot with observations }) SampleScreening.request)

theorem frozen_abstained : (frozen SampleScreening.snapshot.observations).map (·.disposition) =
    some .abstained := by decide +kernel

/-- The second observation with its signals the other way round. -/
def turned : ScreeningObservation :=
  { SampleScreening.second with signals := SampleScreening.second.signals.reverse }

end SampleScreened

open SampleScreened SampleScreening in
/-- The freeze of two securities replays, and one row's score is a nonzero sum. -/
theorem sample_replayed : ∃ outcome, frozen snapshot.observations = some outcome ∧
    replayScreening .exact hashes ⟨id, id⟩ snapshot (input.replayRequest request) =
      (outcome.screeningAudit, []) ∧
    ∃ found ∈ snapshot.observations, found.securityId = "second" ∧
      some 2 = some (auditOf .exact snapshot found).positiveScore := by
  obtain ⟨outcome, houtcome, hdisposition⟩ := Option.map_eq_some_iff.mp frozen_abstained
  obtain ⟨_, heq, hreplay, hrows⟩ := freezeSelection_replayed houtcome (.inr hdisposition)
  cases heq
  obtain ⟨found, hfound, hid, hpositive, -⟩ :=
    hrows _ (List.mem_cons_of_mem _ List.mem_cons_self)
  exact ⟨outcome, houtcome, hreplay, found, hfound, hid, hpositive⟩

open SampleScreened SampleScreening in
/-- Swapping the securities and one security's signals only reorders the audit. -/
theorem sample_reordered : ∃ outcome audit, frozen snapshot.observations = some outcome ∧
    Reordered SameContribution outcome.screeningAudit audit ∧
    frozen [turned, first] = some { outcome with screeningAudit := audit } := by
  have horder : Reordered SameRow snapshot.observations [turned, first] :=
    ⟨[second, first], .swap _ _ _,
      .cons ⟨rfl, rfl, (List.reverse_perm _).symm⟩ (.cons ⟨rfl, rfl, .refl _⟩ .nil)⟩
  obtain ⟨outcome, houtcome, hdisposition⟩ := Option.map_eq_some_iff.mp frozen_abstained
  obtain ⟨audit, haudit, hreordered⟩ :=
    freezeSelection_reordered houtcome (.inr hdisposition) horder
  exact ⟨outcome, audit, houtcome, haudit, hreordered⟩

end StockProfiler.CandidateSelection
