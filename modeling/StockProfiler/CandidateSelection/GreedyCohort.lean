import StockProfiler.CandidateSelection.CohortScan

/-!
# What a selection freezes

A command that passes the gates is ranked by its scores and freezes the greedy cohort of its
ranking, or abstains where that cohort is too small.
-/

namespace StockProfiler.CandidateSelection

variable {others : List ScreeningRow}

section Gates

variable {command : SelectionCommand} {input : SelectionInput}
  {audit : List ScreeningContribution}

theorem exists_ne_of_eraseDups {β : Type*} [DecidableEq β] {items : List β}
    (h : ¬ items.eraseDups.length < 2) : ∃ first ∈ items, ∃ second ∈ items, first ≠ second := by
  have hnodup := eraseDups_nodup items
  have hmem : ∀ b, b ∈ items.eraseDups → b ∈ items := fun b => List.mem_eraseDups.mp
  cases hlist : items.eraseDups with
  | nil =>
    rw [hlist] at h
    exact absurd Nat.two_pos h
  | cons first rest =>
    cases rest with
    | nil =>
      rw [hlist] at h
      exact absurd Nat.one_lt_two h
    | cons second rest =>
      rw [hlist] at hnodup hmem
      refine ⟨first, hmem first (List.mem_cons_self ..), second,
        hmem second (List.mem_cons_of_mem _ (List.mem_cons_self ..)), ?_⟩
      rintro rfl
      exact (List.nodup_cons.mp hnodup).1 (List.mem_cons_self ..)

theorem reason_eq_nil_iff {P : Prop} [Decidable P] {reason : String} :
    (if P then [reason] else []) = [] ↔ ¬ P := by
  by_cases h : P
  · rw [if_pos h]
    exact iff_of_false (List.cons_ne_nil _ _) (not_not.mpr h)
  · rw [if_neg h]
    exact iff_of_true rfl h

theorem failures_of_gate (h : input.gate = some (.ok audit)) : input.failures = [] := by
  unfold SelectionInput.gate at h
  dsimp only at h
  split at h
  · exact absurd (Option.some.inj h) nofun
  · split at h
    · exact absurd (Option.some.inj h) nofun
    · rename_i hfailures
      exact not_not.mp hfailures

/-- The rows of a command that passes the gates are screened. -/
theorem screened_of_gate (h : input.gate = some (.ok audit)) :
    Screened input.command.policy input.command.rows := by
  have hfailures := failures_of_gate h
  rw [SelectionInput.failures, List.append_eq_nil_iff, List.append_eq_nil_iff,
    List.flatMap_eq_nil_iff] at hfailures
  obtain ⟨⟨huniverse, hrows⟩, -⟩ := hfailures
  unfold universeFailures at huniverse
  split at huniverse
  · dsimp only at huniverse
    split at huniverse
    · exact absurd huniverse (List.cons_ne_nil _ _)
    · rw [List.append_eq_nil_iff, reason_eq_nil_iff, reason_eq_nil_iff, not_or, not_or,
        not_not, not_not] at huniverse
      obtain ⟨⟨hids, -⟩, -, hwindow⟩ := huniverse
      refine ⟨hids, fun row hrow => ?_, fun row hrow => ?_⟩
      · by_contra hlength
        exact hwindow (List.any_eq_true.mpr ⟨row, hrow, decide_eq_true (.inr hlength)⟩)
      · have hrow' := hrows row hrow
        rw [rowFailures, List.append_eq_nil_iff, reason_eq_nil_iff] at hrow'
        exact exists_ne_of_eraseDups hrow'.2
  · exact absurd huniverse (List.cons_ne_nil _ _)

theorem freezeSelection_of_gate {ctx : DecimalContext} (h : input.gate = some (.ok audit)) :
    freezeSelection ctx input = selectCohort ctx input.command audit := by
  rw [freezeSelection, h]
  rfl

end Gates

section Limits

variable {policy : SelectionPolicy} {rows members order : List ScreeningRow}

/-- Members that respect the limits of a policy. -/
structure RespectsLimits (policy : SelectionPolicy) (rows members : List ScreeningRow) : Prop where
  industry : ∀ industry : Option String,
    members.countP (fun member => member.industry = industry) ≤ policy.industryLimit
  capitalization : ∀ group, members.countP (fun member =>
    capitalizationGroup rows member = group) ≤ policy.capitalizationLimit
  correlation : members.Pairwise fun first second =>
    returnCorrelation first.adjustedReturns second.adjustedReturns ≤ policy.maximumCorrelation

theorem countP_snoc_le {β κ : Type*} [DecidableEq κ] {key : β → κ} {items : List β} {b : β}
    {limit : ℕ} (h : ∀ k, items.countP (fun a => key a = k) ≤ limit)
    (hb : ¬ limit ≤ items.countP fun a => key a = key b) (k : κ) :
    (items ++ [b]).countP (fun a => key a = k) ≤ limit := by
  have hk := h k
  rw [List.countP_append, List.countP_singleton]
  split
  · rename_i hkey
    obtain rfl := of_decide_eq_true hkey
    omega
  · omega

/-- A row that violates no limit leaves members that respect the limits. -/
theorem RespectsLimits.snoc (h : RespectsLimits policy rows members) {row : ScreeningRow}
    (hrow : ¬ Violates policy rows members row) :
    RespectsLimits policy rows (members ++ [row]) := by
  rw [Violates, not_or, not_or] at hrow
  obtain ⟨hindustry, hgroup, hcorrelated⟩ := hrow
  push Not at hcorrelated
  refine ⟨countP_snoc_le h.industry hindustry, countP_snoc_le h.capitalization hgroup, ?_⟩
  rw [List.pairwise_append]
  refine ⟨h.correlation, List.pairwise_singleton _ _, fun member hmember other hother => ?_⟩
  obtain rfl := List.mem_singleton.mp hother
  rw [returnCorrelation, pearson_comm]
  exact hcorrelated member hmember

theorem RespectsLimits.sublist (h : RespectsLimits policy rows members)
    (hsub : others.Sublist members) : RespectsLimits policy rows others :=
  ⟨fun industry => (hsub.countP_le).trans (h.industry industry),
    fun group => (hsub.countP_le).trans (h.capitalization group), h.correlation.sublist hsub⟩

theorem respectsLimits_greedyCohort : RespectsLimits policy rows (greedyCohort policy rows order) :=
  greedyFrom_invariant (fun _ _ h hadmits => h.snoc (admitsRow_iff.mp hadmits))
    ⟨fun _ => Nat.zero_le _, fun _ => Nat.zero_le _, List.Pairwise.nil⟩

end Limits

section Scan

variable {entry : List ScreeningRow × ScreeningRow} {command : SelectionCommand}
  {order : List ScreeningRow}

/-- What is scanned are rows, after members that are rows. -/
theorem subset_of_scanUpTo (horder : order ⊆ command.rows)
    (h : entry ∈ scanUpTo (admitsRow command.policy command.rows) command.policy.cohortSize []
      order) : entry.1 ⊆ command.rows ∧ entry.2 ∈ command.rows := by
  have hscanned : ∀ other ∈ scanUpTo (admitsRow command.policy command.rows)
      command.policy.cohortSize [] order, other.2 ∈ command.rows := fun other hother =>
    horder ((scanUpTo_first [] order).subset (List.mem_map_of_mem hother))
  refine ⟨?_, hscanned entry h⟩
  obtain ⟨earlier, later, hsplit⟩ := List.append_of_mem h
  rw [eq_filter_of_scanUpTo hsplit, List.nil_append]
  intro row hrow
  obtain ⟨other, hother, rfl⟩ := List.mem_map.mp hrow
  refine hscanned other ?_
  rw [hsplit]
  exact List.mem_append_left _ (List.mem_of_mem_filter hother)

theorem included_scanEntry (h : Screened command.policy command.rows)
    (horder : order ⊆ command.rows)
    (hentry : entry ∈ scanUpTo (admitsRow command.policy command.rows) command.policy.cohortSize []
      order) : (scanEntry command entry.1 entry.2).included =
        admitsRow command.policy command.rows entry.1 entry.2 := by
  obtain ⟨hmembers, hrow⟩ := subset_of_scanUpTo horder hentry
  have hincluded := scanEntry_included_iff h hmembers hrow
  rw [Bool.eq_iff_iff, admitsRow_iff, ← hincluded]
  exact decide_eq_true_iff

theorem included_map (h : Screened command.policy command.rows) (horder : order ⊆ command.rows)
    {entries : List (List ScreeningRow × ScreeningRow)}
    (hentries : ∀ entry ∈ entries, entry ∈ scanUpTo (admitsRow command.policy command.rows)
      command.policy.cohortSize [] order) :
    ((entries.map fun entry => scanEntry command entry.1 entry.2).filter (·.included)).map
        (·.securityId) =
      ((entries.filter fun entry => admitsRow command.policy command.rows entry.1 entry.2).map
        Prod.snd).map (·.securityId) := by
  rw [List.filter_map, List.map_map, List.map_map]
  have hfilter : (entries.filter fun entry => (scanEntry command entry.1 entry.2).included) =
      entries.filter fun entry => admitsRow command.policy command.rows entry.1 entry.2 :=
    List.filter_congr fun entry hentry => included_scanEntry h horder (hentries entry hentry)
  exact congrArg (List.map _) hfilter

theorem scanOf_first (command : SelectionCommand) (order : List ScreeningRow) :
    (scanOf command order).map (·.securityId) <+: order.map (·.securityId) := by
  rw [scanOf, List.map_map]
  have hfirst := (@scanUpTo_first _ (admitsRow command.policy command.rows)
    command.policy.cohortSize [] order).map (·.securityId)
  rw [List.map_map] at hfirst
  exact hfirst

/-- A scanned row is left out exactly where it violates a limit against the members selected
before it. -/
theorem excluded_iff (h : Screened command.policy command.rows) (horder : order ⊆ command.rows)
    {earlier later : List SelectionScan} {entry : SelectionScan}
    (hsplit : scanOf command order = earlier ++ entry :: later) :
    ∃ row ∈ command.rows, row.securityId = entry.securityId ∧
      ∃ selected, selected ⊆ command.rows ∧
        selected.map (·.securityId) = (earlier.filter (·.included)).map (·.securityId) ∧
        (entry.included = false ↔ Violates command.policy command.rows selected row) := by
  rw [scanOf, List.map_eq_append_iff] at hsplit
  obtain ⟨before, rest, hscan, rfl, hrest⟩ := hsplit
  obtain ⟨scanned, after, rfl, rfl, rfl⟩ := List.map_eq_cons_iff.mp hrest
  have hmem : scanned ∈ scanUpTo (admitsRow command.policy command.rows)
      command.policy.cohortSize [] order := by
    rw [hscan]
    exact List.mem_append_right _ (List.mem_cons_self ..)
  obtain ⟨hmembers, hrow⟩ := subset_of_scanUpTo horder hmem
  refine ⟨scanned.2, hrow, rfl, scanned.1, hmembers, ?_, ?_⟩
  · have hbefore := eq_filter_of_scanUpTo hscan
    rw [List.nil_append] at hbefore
    rw [included_map h horder fun other hother => ?_, ← hbefore]
    rw [hscan]
    exact List.mem_append_left _ hother
  · rw [included_scanEntry h horder hmem, ← Bool.not_eq_true, admitsRow_iff, not_not]

/-- The included rows are the first ones of the greedy cohort. -/
theorem included_scanOf (h : Screened command.policy command.rows) (horder : order ⊆ command.rows) :
    ((scanOf command order).filter (·.included)).map (·.securityId) =
      ((greedyCohort command.policy command.rows order).take command.policy.cohortSize).map
        (·.securityId) := by
  have hmembers := @membersUpTo_eq_filter _ (admitsRow command.policy command.rows)
    command.policy.cohortSize [] order
  rw [membersUpTo_eq_take command.policy.cohortSize_pos, List.nil_append] at hmembers
  rw [scanOf, included_map h horder fun _ => id, ← hmembers]
  rfl

end Scan

/-- An outcome freezes the greedy cohort of the ranking of a command, or abstains. -/
structure FreezesGreedy (ctx : DecimalContext) (command : SelectionCommand)
    (outcome : SelectionOutcome) : Prop where
  /-- All rows are ranked, by exact weighted mid-rank percentile and then by identity. -/
  perm : (rankedRows command.policy command.rows).Perm command.rows
  sorted : (rankedRows command.policy command.rows).Pairwise
    (RankedBefore command.policy command.rows)
  ranking : outcome.ranking = (rankedRows command.policy command.rows).mapIdx
    (rankEntry command.policy command.rows ctx)
  /-- A complete cohort is frozen, a smaller one is not. -/
  frozen_iff : outcome.disposition = .frozen ↔ command.policy.cohortSize ≤
    (greedyCohort command.policy command.rows (rankedRows command.policy command.rows)).length
  abstained_iff : (outcome.disposition = .abstained ∧ outcome.members = []) ↔
    (greedyCohort command.policy command.rows (rankedRows command.policy command.rows)).length <
      command.policy.cohortSize
  /-- A frozen cohort has the size of the policy and respects its limits. -/
  cohort : outcome.disposition = .frozen → ∃ cohort : List ScreeningRow,
    cohort.Sublist (rankedRows command.policy command.rows) ∧
      outcome.members = cohort.map (·.securityId) ∧
      outcome.members = (outcome.scan.filter (·.included)).map (·.securityId) ∧
      outcome.members.Nodup ∧ cohort.length = command.policy.cohortSize ∧
      RespectsLimits command.policy command.rows cohort
  /-- The ranking is scanned in its order. -/
  scanned_first : outcome.scan.map (·.securityId) <+:
    (rankedRows command.policy command.rows).map (·.securityId)
  /-- A scanned row is no member exactly where it violates a limit against the members selected
  before it. -/
  excluded : ∀ earlier entry later, outcome.scan = earlier ++ entry :: later →
    ∃ row ∈ command.rows, row.securityId = entry.securityId ∧
      ∃ selected, selected ⊆ command.rows ∧
        selected.map (·.securityId) = (earlier.filter (·.included)).map (·.securityId) ∧
        (entry.included = false ↔ Violates command.policy command.rows selected row)
  /-- Returns vary, and where they do the comparison of squares agrees with the correlation. -/
  varies : ∀ row ∈ command.rows, 0 < scaledVariance row.adjustedReturns
  correlation : ∀ left right : List ℚ, left.length = right.length → 0 < scaledVariance left →
    0 < scaledVariance right → (correlationExceeds left right command.policy = true ↔
      (command.policy.maximumCorrelation : ℝ) < returnCorrelation left right)

section Selection

variable {ctx : DecimalContext} {command : SelectionCommand}

/-- The cohort is the greedy one: frozen when it is full, else abstained. -/
theorem selectCohort_eq (h : Screened command.policy command.rows)
    (audit : List ScreeningContribution) : ∃ outcome,
    selectCohort ctx command audit = some outcome ∧
      outcome.ranking = (rankedRows command.policy command.rows).mapIdx
        (rankEntry command.policy command.rows ctx) ∧
      outcome.scan = scanOf command (rankedRows command.policy command.rows) ∧
      (command.policy.cohortSize ≤ (greedyCohort command.policy command.rows
            (rankedRows command.policy command.rows)).length ∧
          outcome.disposition = .frozen ∧
          outcome.members = ((greedyCohort command.policy command.rows
            (rankedRows command.policy command.rows)).take command.policy.cohortSize).map
              (·.securityId) ∨
        (greedyCohort command.policy command.rows
            (rankedRows command.policy command.rows)).length < command.policy.cohortSize ∧
          outcome.disposition = .abstained ∧ outcome.members = []) := by
  have hids : (rankingOf ctx command.policy command.rows).map (·.securityId) =
      (rankedRows command.policy command.rows).map (·.securityId) := by
    rw [rankingOf_eq h.ids_nodup, List.mapIdx_eq_zipIdx_map, List.map_map]
    conv_rhs => rw [← List.zipIdx_map_fst 0 (rankedRows command.policy command.rows), List.map_map]
    rfl
  have horder : rankedRows command.policy command.rows ⊆ command.rows := rankedRows_perm.subset
  obtain ⟨conflicts, -, hscan⟩ := scan_eq h (Dict.recalls_nil _) horder
  rw [selectCohort, hids, hscan]
  dsimp only [Option.bind_eq_bind, Option.bind_some, Option.pure_def]
  refine ⟨_, rfl, rankingOf_eq h.ids_nodup, rfl, ?_⟩
  by_cases hfull : command.policy.cohortSize ≤ (greedyCohort command.policy command.rows
    (rankedRows command.policy command.rows)).length
  · have hformed : (((greedyCohort command.policy command.rows
        (rankedRows command.policy command.rows)).take command.policy.cohortSize).map
          (·.securityId)).length = command.policy.cohortSize := by
      rw [List.length_map, List.length_take, min_eq_left hfull]
    refine .inl ⟨hfull, ?_⟩
    simp only [if_pos hfull, if_pos hformed, and_self]
  · have hempty : ([] : List String).length ≠ command.policy.cohortSize :=
      command.policy.cohortSize_pos.ne
    refine .inr ⟨not_le.mp hfull, ?_⟩
    simp only [if_neg hfull, if_neg hempty, and_self]

/-- Screened rows freeze the greedy cohort of their ranking. -/
theorem freezesGreedy (h : Screened command.policy command.rows) {outcome : SelectionOutcome}
    {audit : List ScreeningContribution}
    (houtcome : selectCohort ctx command audit = some outcome) :
    FreezesGreedy ctx command outcome := by
  obtain ⟨other, hother, hranking, hscan, hends⟩ := @selectCohort_eq ctx command h audit
  obtain rfl : outcome = other := Option.some.inj (houtcome.symm.trans hother)
  have horder : rankedRows command.policy command.rows ⊆ command.rows := rankedRows_perm.subset
  refine ⟨rankedRows_perm, rankedRows_sorted h.ids_nodup, hranking, ?_, ?_, fun hfrozen => ?_,
    hscan ▸ scanOf_first command _, fun earlier entry later hsplit =>
      excluded_iff h horder (hscan ▸ hsplit), fun row hrow => h.scaledVariance_pos hrow,
    fun left right => correlationExceeds_iff⟩
  · rcases hends with ⟨hfull, hdisposition, -⟩ | ⟨hshort, hdisposition, -⟩
    · exact iff_of_true hdisposition hfull
    · exact iff_of_false (by rw [hdisposition]; exact nofun) (not_le.mpr hshort)
  · rcases hends with ⟨hfull, hdisposition, -⟩ | ⟨hshort, hdisposition, hmembers⟩
    · refine iff_of_false (fun habstained => ?_) (not_lt.mpr hfull)
      rw [hdisposition] at habstained
      exact nomatch habstained.1
    · exact iff_of_true ⟨hdisposition, hmembers⟩ hshort
  · rcases hends with ⟨hfull, -, hmembers⟩ | ⟨-, hdisposition, -⟩
    · have hsub := (List.take_sublist command.policy.cohortSize (greedyCohort command.policy
        command.rows (rankedRows command.policy command.rows))).trans (greedy_sublist _)
      refine ⟨_, hsub, hmembers, ?_, ?_, ?_,
        respectsLimits_greedyCohort.sublist (List.take_sublist _ _)⟩
      · rw [hmembers, hscan, included_scanOf h horder]
      · rw [hmembers]
        exact ((rankedRows_perm.map _).nodup_iff.mpr h.ids_nodup).sublist (hsub.map _)
      · rw [List.length_take, min_eq_left hfull]
    · rw [hdisposition] at hfrozen
      exact nomatch hfrozen

theorem capitalizationGroup_perm {rows : List ScreeningRow} (h : rows.Perm others) :
    capitalizationGroup rows = capitalizationGroup others := by
  funext row
  rw [capitalizationGroup, capitalizationGroup, h.countP_eq, h.length_eq]

theorem admitsRow_perm (policy : SelectionPolicy) {rows : List ScreeningRow}
    (h : rows.Perm others) : admitsRow policy rows = admitsRow policy others := by
  funext members row
  rw [Bool.eq_iff_iff, admitsRow_iff, admitsRow_iff, Violates, Violates,
    capitalizationGroup_perm h]

theorem limitReasons_congr {constraints others : SelectionConstraints}
    (h : constraints.policy = others.policy) : constraints.limitReasons = others.limitReasons := by
  obtain ⟨policy, capitalization, rows⟩ := constraints
  obtain rfl : policy = others.policy := h
  rfl

theorem scanOf_perm {other : SelectionCommand} (hpolicy : other.policy = command.policy)
    (h : other.rows.Perm command.rows) (order : List ScreeningRow) :
    scanOf other order = scanOf command order := by
  have hplaced : placed other = placed command := by
    funext row
    rw [placed, placed, capitalizationGroup_perm h]
  have hcorrelated : correlatedMembers other = correlatedMembers command := by
    funext members row
    rw [correlatedMembers, correlatedMembers, hpolicy]
  have hreasons : (SelectionConstraints.ofCommand other).limitReasons =
      (SelectionConstraints.ofCommand command).limitReasons := limitReasons_congr hpolicy
  have hentry : scanEntry other = scanEntry command := by
    funext members row
    rw [scanEntry, scanEntry, hreasons, hplaced, hcorrelated, capitalizationGroup_perm h]
  rw [scanOf, scanOf, hentry, hpolicy, admitsRow_perm _ h]

/-- A command that reaches the ranking freezes the greedy cohort of its ranking, and so does one
with its rows in another order. -/
theorem freezeSelection_greedy {input : SelectionInput} {audit : List ScreeningContribution}
    (hgate : input.gate = some (.ok audit)) :
    ∃ outcome, freezeSelection ctx input = some outcome ∧
      FreezesGreedy ctx input.command outcome ∧
      ∀ other audit', other.gate = some (.ok audit') →
        other.command.policy = input.command.policy →
        other.command.rows.Perm input.command.rows →
        ∃ outcome', freezeSelection ctx other = some outcome' ∧
          outcome'.ranking = outcome.ranking ∧ outcome'.scan = outcome.scan ∧
          outcome'.disposition = outcome.disposition ∧ outcome'.members = outcome.members := by
  have hscreened := screened_of_gate hgate
  obtain ⟨outcome, houtcome, hranking, hscan, hends⟩ := @selectCohort_eq ctx _ hscreened audit
  refine ⟨outcome, (freezeSelection_of_gate hgate).trans houtcome,
    freezesGreedy hscreened houtcome, fun other audit' hgate' hpolicy hperm => ?_⟩
  have hscreened' := screened_of_gate hgate'
  obtain ⟨outcome', houtcome', hranking', hscan', hends'⟩ :=
    @selectCohort_eq ctx _ hscreened' audit'
  have hrows : rankedRows other.command.policy other.command.rows =
      rankedRows input.command.policy input.command.rows := by
    rw [hpolicy]
    exact rankedRows_congr hperm hscreened'.ids_nodup
  have hcohort : greedyCohort other.command.policy other.command.rows =
      greedyCohort input.command.policy input.command.rows := by
    funext order
    rw [greedyCohort, greedyCohort, hpolicy, admitsRow_perm _ hperm]
  rw [hrows, hcohort, hpolicy] at hends'
  refine ⟨outcome', (freezeSelection_of_gate hgate').trans houtcome', ?_, ?_, ?_⟩
  · rw [hranking', hranking, hrows, hpolicy, rankEntry_perm hperm]
  · rw [hscan', hscan, hrows, scanOf_perm hpolicy hperm]
  · rcases hends with ⟨hfull, hdisposition, hmembers⟩ | ⟨hshort, hdisposition, hmembers⟩
    · rcases hends' with ⟨-, hdisposition', hmembers'⟩ | ⟨hshort', -⟩
      · exact ⟨hdisposition'.trans hdisposition.symm, hmembers'.trans hmembers.symm⟩
      · exact absurd hfull (not_le.mpr hshort')
    · rcases hends' with ⟨hfull', -⟩ | ⟨-, hdisposition', hmembers'⟩
      · exact absurd hfull' (not_le.mpr hshort)
      · exact ⟨hdisposition'.trans hdisposition.symm, hmembers'.trans hmembers.symm⟩

end Selection

namespace SampleCohort

def policy : SelectionPolicy where
  versionId := "V1"
  cohortSize := 2
  industryLimit := 1
  capitalizationLimit := 2
  correlationSessions := 2
  maximumCorrelation := 1 / 2
  positiveWeight := 2
  terminalWeight := 1
  cohortSize_pos := by decide
  industryLimit_pos := by decide
  capitalizationLimit_pos := by decide
  correlationSessions_gt := by decide
  maximumCorrelation_mem := by decide +kernel
  positiveWeight_pos := by decide
  terminalWeight_pos := by decide

def row (securityId industry : String) (capitalization score : ℚ) (returns : List ℚ) :
    ScreeningRow where
  securityId
  industry := some industry
  floatCapitalization := some capitalization
  positiveScore := some score
  terminalScore := some score
  adjustedReturns := returns
  returnDates := [1, 2]

/-- The rows: the second one has the industry of the first, the third one its returns. -/
def rows : List ScreeningRow :=
  [row "D" "Y" 40 1 [1 / 10, 0], row "B" "X" 20 3 [0, 1 / 10], row "C" "Z" 30 2 [0, 1 / 5],
    row "A" "X" 10 4 [0, 1 / 10]]

/-- The audit of a row that has its scores from nowhere else. -/
def scored (row : ScreeningRow) : ScreeningContribution where
  securityId := row.securityId
  signals := []
  positiveContributions := [("intercept", row.positive)]
  terminalContributions := [("intercept", row.terminal)]
  positiveScore := row.positive
  terminalScore := row.terminal

def input : SelectionInput where
  command := ⟨10, .synthetic, "U", policy, rows⟩
  source := some ⟨10, .synthetic, some [⟨1, some 5⟩, ⟨2, some 9⟩, ⟨3, none⟩]⟩
  universeOutcome := some ⟨.frozen, ["A", "B", "C", "D"]⟩
  deliveryFailures := []
  replay := some (rows.map scored, [])

theorem input_spec : input.gate = some (.ok (rows.map scored)) ∧
    (freezeSelection .exact input).map (·.members) = some ["A", "D"] ∧
    (freezeSelection .exact input).map (·.disposition) = some .frozen := by
  decide +kernel

/-- The first and the last row make the cohort. -/
theorem input_greedy : ∃ outcome, freezeSelection .exact input = some outcome ∧
    FreezesGreedy .exact input.command outcome ∧ outcome.members = ["A", "D"] ∧
    ∃ cohort, RespectsLimits policy rows cohort ∧ outcome.members = cohort.map (·.securityId) := by
  obtain ⟨hgate, hmembers, hdisposition⟩ := input_spec
  obtain ⟨outcome, houtcome, hgreedy, -⟩ := @freezeSelection_greedy .exact input _ hgate
  rw [houtcome] at hmembers hdisposition
  obtain ⟨cohort, -, hcohort, -, -, -, hlimits⟩ :=
    hgreedy.cohort (Option.some.inj hdisposition)
  exact ⟨outcome, houtcome, hgreedy, Option.some.inj hmembers, cohort, hlimits, hcohort⟩

end SampleCohort

end StockProfiler.CandidateSelection
