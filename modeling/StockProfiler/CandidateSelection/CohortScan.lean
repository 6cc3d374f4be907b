import StockProfiler.CandidateSelection.Ranking
import StockProfiler.Core.Greedy

/-!
# The greedy cohort

The scan of an order selects the greedy cohort: a row joins the members before it unless the
limit of its industry or of its capitalization group is reached or its returns are correlated
with those of a member. Conflicts that are known from earlier scans never decide anything.
-/

namespace StockProfiler.CandidateSelection

variable {first second : ScreeningRow}

/-- What the gates before the ranking establish of the rows. -/
structure Screened (policy : SelectionPolicy) (rows : List ScreeningRow) : Prop where
  ids_nodup : (rows.map (·.securityId)).Nodup
  length_returns : ∀ row ∈ rows, row.adjustedReturns.length = policy.correlationSessions
  varies : ∀ row ∈ rows, ∃ first ∈ row.adjustedReturns, ∃ second ∈ row.adjustedReturns,
    first ≠ second

/-- What the capitalization of rows compares. -/
def capitalizationKey (row : ScreeningRow) : ℚ ×ₗ String :=
  toLex (row.capitalization, row.securityId)

/-- The tercile of a row by capitalization. -/
def capitalizationGroup (rows : List ScreeningRow) (row : ScreeningRow) : ℕ :=
  rows.countP (fun other => capitalizationKey other < capitalizationKey row) * 3 / rows.length

/-- The correlation of two returns. -/
noncomputable def returnCorrelation (first second : List ℚ) : ℝ :=
  pearson (first.map (Rat.castHom ℝ)) (second.map (Rat.castHom ℝ))

/-- A row violates a limit against some members. -/
def Violates (policy : SelectionPolicy) (rows members : List ScreeningRow) (row : ScreeningRow) :
    Prop :=
  policy.industryLimit ≤ members.countP (fun member => member.industry = row.industry) ∨
    policy.capitalizationLimit ≤ members.countP (fun member =>
      capitalizationGroup rows member = capitalizationGroup rows row) ∨
    ∃ member ∈ members, (policy.maximumCorrelation : ℝ) <
      returnCorrelation row.adjustedReturns member.adjustedReturns

open Classical in
/-- Members admit a row that violates no limit against them. -/
noncomputable def admitsRow (policy : SelectionPolicy) (rows members : List ScreeningRow)
    (row : ScreeningRow) : Bool :=
  ¬ Violates policy rows members row

/-- The greedy cohort of an order. -/
noncomputable def greedyCohort (policy : SelectionPolicy) (rows order : List ScreeningRow) :
    List ScreeningRow :=
  greedy (admitsRow policy rows) order

theorem admitsRow_iff {policy : SelectionPolicy} {rows members : List ScreeningRow}
    {row : ScreeningRow} :
    admitsRow policy rows members row = true ↔ ¬ Violates policy rows members row :=
  @decide_eq_true_iff _ (_)

section Correlation

variable {policy : SelectionPolicy} {rows : List ScreeningRow} {left right : List ℚ}

theorem correlationExceeds_iff (hlength : left.length = right.length)
    (hleft : 0 < scaledVariance left) (hright : 0 < scaledVariance right) :
    correlationExceeds left right policy = true ↔
      (policy.maximumCorrelation : ℝ) < returnCorrelation left right := by
  have hcast : ∀ returns : List ℚ, scaledVariance (returns.map (Rat.castHom ℝ)) =
      ((scaledVariance returns : ℚ) : ℝ) := by
    intro returns
    rw [scaledVariance_eq, scaledVariance_eq, scaledCovariance_map]
    rfl
  have hmaximum : (0 : ℝ) ≤ (policy.maximumCorrelation : ℝ) :=
    Rat.cast_nonneg.mpr policy.maximumCorrelation_mem.1
  have hcovariance : Rat.castHom ℝ (scaledCovariance left right) =
      ((scaledCovariance left right : ℚ) : ℝ) := rfl
  rw [returnCorrelation, lt_pearson_iff
    ((List.length_map _).trans (hlength.trans (List.length_map _).symm))
    (by rw [hcast]; exact Rat.cast_pos.mpr hleft) (by rw [hcast]; exact Rat.cast_pos.mpr hright)
    hmaximum, hcast, hcast, scaledCovariance_map, correlationExceeds, decide_eq_true_eq,
    hcovariance, Rat.cast_pos]
  norm_cast

theorem correlationExceeds_comm (hlength : left.length = right.length) :
    correlationExceeds left right policy = correlationExceeds right left policy := by
  rw [correlationExceeds, correlationExceeds, scaledCovariance_comm hlength, mul_right_comm]

theorem Screened.scaledVariance_pos (h : Screened policy rows) {row : ScreeningRow}
    (hrow : row ∈ rows) : 0 < scaledVariance row.adjustedReturns := by
  obtain ⟨first, hfirst, second, hsecond, hne⟩ := h.varies row hrow
  exact StockProfiler.scaledVariance_pos hfirst hsecond hne

theorem Screened.length_eq (h : Screened policy rows) (hfirst : first ∈ rows)
    (hsecond : second ∈ rows) : first.adjustedReturns.length = second.adjustedReturns.length :=
  (h.length_returns first hfirst).trans (h.length_returns second hsecond).symm

theorem Screened.exceeds_iff (h : Screened policy rows) (hfirst : first ∈ rows)
    (hsecond : second ∈ rows) :
    correlationExceeds first.adjustedReturns second.adjustedReturns policy = true ↔
      (policy.maximumCorrelation : ℝ) <
        returnCorrelation first.adjustedReturns second.adjustedReturns :=
  correlationExceeds_iff (h.length_eq hfirst hsecond) (h.scaledVariance_pos hfirst)
    (h.scaledVariance_pos hsecond)

theorem Screened.eq_of_id (h : Screened policy rows) (hfirst : first ∈ rows)
    (hsecond : second ∈ rows) (hid : first.securityId = second.securityId) : first = second :=
  List.inj_on_of_nodup_map h.ids_nodup hfirst hsecond hid

end Correlation

section Groups

variable {policy : SelectionPolicy} {rows : List ScreeningRow}

/-- In a strictly sorted list, as many elements are below an element as come before it. -/
theorem countP_lt_getElem {β κ : Type*} [LinearOrder κ] {key : β → κ} {items : List β}
    (h : items.Pairwise fun first later => key first < key later) {index : ℕ} {b : β}
    (hb : items[index]? = some b) : items.countP (fun other => key other < key b) = index := by
  induction items generalizing index with
  | nil => exact absurd hb nofun
  | cons first items ih =>
    obtain ⟨hfirst, hrest⟩ := List.pairwise_cons.mp h
    cases index with
    | zero =>
      cases hb
      rw [List.countP_eq_zero]
      intro other hother
      rcases List.mem_cons.mp hother with rfl | hmem
      · simp
      · simpa using (hfirst other hmem).le
    | succ index =>
      rw [List.getElem?_cons_succ] at hb
      rw [List.countP_cons, ih hrest hb,
        if_pos (decide_eq_true (hfirst b (List.mem_of_getElem? hb)))]

theorem capitalizationKey_nodup (hids : (rows.map (·.securityId)).Nodup) :
    (rows.map capitalizationKey).Nodup := by
  rw [List.nodup_map_iff_inj_on (List.Nodup.of_map _ hids)]
  intro first hfirst later hlater heq
  exact List.inj_on_of_nodup_map hids hfirst hlater (congrArg (fun key => (ofLex key).2) heq)

/-- A security is placed with its row and the tercile of its capitalization. -/
theorem place_eq {command : SelectionCommand} (hids : (command.rows.map (·.securityId)).Nodup)
    {row : ScreeningRow} (hrow : row ∈ command.rows) :
    (SelectionConstraints.ofCommand command).place row.securityId =
      some ⟨row, capitalizationGroup command.rows row⟩ := by
  have hkeys : ((command.rows.map fun row => (row.securityId, row)).map Prod.fst).Nodup := by
    rw [List.map_map]
    exact hids
  have hrows : (SelectionConstraints.ofCommand command).rows.get? row.securityId = some row := by
    rw [SelectionConstraints.ofCommand, Dict.ofLast_of_nodup hkeys]
    exact Dict.get?_of_mem hkeys (List.mem_map_of_mem (f := fun row => (row.securityId, row)) hrow)
  have hsorted := pairwise_lt_insertionSort capitalizationKey (capitalizationKey_nodup hids)
  generalize hlist : (command.rows.insertionSort fun first later =>
    capitalizationKey first ≤ capitalizationKey later) = sorted at hsorted
  have hperm : sorted.Perm command.rows := hlist ▸ List.perm_insertionSort _ _
  obtain ⟨index, hindex⟩ := List.mem_iff_getElem?.mp (hperm.mem_iff.mpr hrow)
  have hcount : command.rows.countP (fun other => capitalizationKey other < capitalizationKey row) =
      index := by
    rw [← hperm.countP_eq]
    exact countP_lt_getElem hsorted hindex
  have hfiled : ((sorted.mapIdx fun index row =>
      (row.securityId, index * 3 / command.rows.length)).map Prod.fst).Nodup := by
    have hmap : (sorted.mapIdx fun index row =>
        (row.securityId, index * 3 / command.rows.length)).map Prod.fst =
        sorted.map (·.securityId) := by
      rw [List.mapIdx_eq_zipIdx_map, List.map_map]
      conv_rhs => rw [← List.zipIdx_map_fst 0 sorted, List.map_map]
      rfl
    rw [hmap]
    exact (hperm.map _).nodup_iff.mpr hids
  have hgroup : (SelectionConstraints.ofCommand command).capitalization.get? row.securityId =
      some (capitalizationGroup command.rows row) := by
    have hmem : (row.securityId, index * 3 / command.rows.length) ∈ sorted.mapIdx fun index row =>
        (row.securityId, index * 3 / command.rows.length) := by
      apply List.mem_of_getElem? (i := index)
      rw [List.getElem?_mapIdx, hindex]
      rfl
    have hget := Dict.get?_of_mem hfiled hmem
    rw [capitalizationGroup, hcount, ← hget, ← Dict.ofLast_of_nodup hfiled, ← hlist]
    rfl
  rw [SelectionConstraints.place, hrows]
  dsimp only [Option.bind_eq_bind, Option.bind_some]
  rw [hgroup]
  rfl

end Groups

section Scan

variable (command : SelectionCommand)

/-- A row with its group. -/
def placed (row : ScreeningRow) : PlacedRow := ⟨row, capitalizationGroup command.rows row⟩

/-- Whether two rows with the identities of a pair are correlated. -/
def conflictOf (pair : Sym2 String) : Bool :=
  command.rows.any fun first => command.rows.any fun second =>
    s(first.securityId, second.securityId) = pair ∧
      correlationExceeds first.adjustedReturns second.adjustedReturns command.policy

/-- The members that a row is correlated with. -/
def correlatedMembers (members : List ScreeningRow) (row : ScreeningRow) : List ScreeningRow :=
  members.filter fun member =>
    correlationExceeds row.adjustedReturns member.adjustedReturns command.policy

/-- What the scan says of a row after some members. -/
def scanEntry (members : List ScreeningRow) (row : ScreeningRow) : SelectionScan :=
  let correlated := (correlatedMembers command members row).map (placed command)
  let reasons := (SelectionConstraints.ofCommand command).limitReasons (placed command row)
    (members.map (placed command)) correlated
  { securityId := row.securityId
    capitalizationGroup := capitalizationGroup command.rows row
    included := reasons = []
    reasons
    correlatedWith := correlated.map (·.row.securityId) }

/-- The scan of an order. -/
noncomputable def scanOf (order : List ScreeningRow) : List SelectionScan :=
  (scanUpTo (admitsRow command.policy command.rows)
    command.policy.cohortSize [] order).map fun entry => scanEntry command entry.1 entry.2

variable {command} {members order : List ScreeningRow} {row : ScreeningRow} {conflicts : Conflicts}

variable (h : Screened command.policy command.rows)
include h

/-- The conflict of two rows is the one of their identities. -/
theorem conflictOf_eq (hfirst : first ∈ command.rows) (hsecond : second ∈ command.rows) :
    correlationExceeds first.adjustedReturns second.adjustedReturns command.policy =
      conflictOf command s(first.securityId, second.securityId) := by
  rw [Bool.eq_iff_iff, conflictOf, List.any_eq_true]
  simp only [List.any_eq_true, decide_eq_true_eq]
  constructor
  · exact fun hexceeds => ⟨first, hfirst, second, hsecond, rfl, hexceeds⟩
  · rintro ⟨other, hother, another, hanother, hpair, hexceeds⟩
    rcases Sym2.eq_iff.mp hpair with ⟨hid, hid'⟩ | ⟨hid, hid'⟩
    · rwa [← h.eq_of_id hother hfirst hid, ← h.eq_of_id hanother hsecond hid']
    · rw [← h.eq_of_id hother hsecond hid, ← h.eq_of_id hanother hfirst hid',
        correlationExceeds_comm (h.length_eq hanother hother)]
      exact hexceeds

/-- Known conflicts do not decide which members a row is correlated with. -/
theorem correlatedWith_spec (hknown : Dict.Recalls (conflictOf command) conflicts)
    (hmembers : members ⊆ command.rows) (hrow : row ∈ command.rows) :
    ((SelectionConstraints.ofCommand command).correlatedWith conflicts (placed command row)
        (members.map (placed command))).1 =
      (correlatedMembers command members row).map (placed command) ∧
    Dict.Recalls (conflictOf command) ((SelectionConstraints.ofCommand command).correlatedWith
      conflicts (placed command row) (members.map (placed command))).2 := by
  obtain ⟨hfound, hkept⟩ := Dict.recallFilter_spec hknown
    (fun member : PlacedRow => s(row.securityId, member.row.securityId))
    (fun member => correlationExceeds row.adjustedReturns member.row.adjustedReturns
      command.policy) (members.map (placed command)) (by
    intro member hmember
    obtain ⟨other, hother, rfl⟩ := List.mem_map.mp hmember
    exact conflictOf_eq h hrow (hmembers hother))
  refine ⟨?_, hkept⟩
  rw [SelectionConstraints.correlatedWith, correlatedMembers]
  refine hfound.trans ?_
  rw [List.filter_map]
  rfl

/-- A row is included exactly when it violates no limit of the policy. -/
theorem scanEntry_included_iff (hmembers : members ⊆ command.rows) (hrow : row ∈ command.rows) :
    (scanEntry command members row).reasons = [] ↔
      ¬ Violates command.policy command.rows members row := by
  have hcorrelated : (correlatedMembers command members row).map (placed command) ≠ [] ↔
      ∃ member ∈ members, (command.policy.maximumCorrelation : ℝ) <
        returnCorrelation row.adjustedReturns member.adjustedReturns := by
    rw [Ne, List.map_eq_nil_iff, correlatedMembers, List.filter_eq_nil_iff]
    push Not
    constructor
    · rintro ⟨member, hmember, hexceeds⟩
      exact ⟨member, hmember, (h.exceeds_iff hrow (hmembers hmember)).mp hexceeds⟩
    · rintro ⟨member, hmember, hexceeds⟩
      exact ⟨member, hmember, (h.exceeds_iff hrow (hmembers hmember)).mpr hexceeds⟩
  have hlists : ∀ {P : Prop} [Decidable P] (reason : String),
      (if P then [reason] else []) = [] ↔ ¬ P := by
    intro P _ reason
    by_cases hP : P
    · rw [if_pos hP]
      exact iff_of_false (List.cons_ne_nil _ _) (not_not.mpr hP)
    · rw [if_neg hP]
      exact iff_of_true rfl hP
  rw [scanEntry]
  dsimp only
  rw [SelectionConstraints.limitReasons, List.append_eq_nil_iff, List.append_eq_nil_iff, hlists,
    hlists, hlists, hcorrelated, Violates, List.countP_map, List.countP_map, not_or, not_or,
    and_assoc]
  rfl

/-- The scan of an order, whatever conflicts are known, is the one that the limits decide. -/
theorem scanFrom_eq (hknown : Dict.Recalls (conflictOf command) conflicts)
    (hmembers : members ⊆ command.rows) (horder : order ⊆ command.rows) :
    ∃ conflicts', Dict.Recalls (conflictOf command) conflicts' ∧
      (SelectionConstraints.ofCommand command).scanFrom (members.map (placed command)) conflicts
        (order.map (·.securityId)) = some
          ((membersUpTo (admitsRow command.policy command.rows)
              command.policy.cohortSize members order).map (placed command),
            (scanUpTo (admitsRow command.policy command.rows)
              command.policy.cohortSize members order).map fun entry =>
                scanEntry command entry.1 entry.2,
            conflicts') := by
  induction order generalizing members conflicts with
  | nil => exact ⟨conflicts, hknown, rfl⟩
  | cons row order ih =>
    rw [List.cons_subset] at horder
    obtain ⟨hrow, horder⟩ := horder
    obtain ⟨hcorrelated, hkept⟩ := correlatedWith_spec h hknown hmembers hrow
    have hincluded := scanEntry_included_iff h hmembers hrow
    rw [scanEntry] at hincluded
    dsimp only at hincluded
    set next := joined (admitsRow command.policy command.rows)
      members row with hnext
    have hmembers' : next ⊆ command.rows := by
      rw [hnext, joined]
      split
      · exact List.append_subset.mpr ⟨hmembers, List.cons_subset.mpr ⟨hrow, List.nil_subset _⟩⟩
      · exact hmembers
    have hjoined : (if (SelectionConstraints.ofCommand command).limitReasons (placed command row)
        (members.map (placed command)) ((correlatedMembers command members row).map
          (placed command)) = [] then members.map (placed command) ++ [placed command row]
        else members.map (placed command)) = next.map (placed command) := by
      rw [hnext, joined]
      by_cases hviolates : Violates command.policy command.rows members row
      · rw [if_neg (mt hincluded.mp (not_not.mpr hviolates)),
          if_neg (mt admitsRow_iff.mp (not_not.mpr hviolates))]
      · rw [if_pos (hincluded.mpr hviolates), if_pos (admitsRow_iff.mpr hviolates),
          List.map_append]
        rfl
    have hplace : (SelectionConstraints.ofCommand command).place row.securityId =
        some (placed command row) := place_eq h.ids_nodup hrow
    rw [List.map_cons, SelectionConstraints.scanFrom, hplace, membersUpTo, scanUpTo, ← hnext]
    dsimp only [Option.bind_eq_bind, Option.bind_some]
    generalize (SelectionConstraints.ofCommand command).correlatedWith conflicts
      (placed command row) (members.map (placed command)) = found at hcorrelated hkept ⊢
    obtain ⟨correlated, kept⟩ := found
    obtain rfl : correlated = _ := hcorrelated
    have hsize : (SelectionConstraints.ofCommand command).policy.cohortSize =
        command.policy.cohortSize := rfl
    dsimp only
    rw [hjoined, List.length_map, hsize]
    by_cases hlength : next.length = command.policy.cohortSize
    · refine ⟨kept, hkept, ?_⟩
      rw [if_pos hlength, if_pos hlength, if_pos hlength]
      rfl
    · obtain ⟨conflicts', hknown', hrest⟩ := ih hkept hmembers' horder
      refine ⟨conflicts', hknown', ?_⟩
      rw [if_neg hlength, if_neg hlength, if_neg hlength, hrest]
      rfl

/-- The complete cohort of an order and its scan, whatever conflicts are known. -/
theorem scan_eq (hknown : Dict.Recalls (conflictOf command) conflicts)
    (horder : order ⊆ command.rows) :
    ∃ conflicts', Dict.Recalls (conflictOf command) conflicts' ∧
      (SelectionConstraints.ofCommand command).scan conflicts (order.map (·.securityId)) =
        some ((if command.policy.cohortSize ≤
              (greedyCohort command.policy command.rows order).length
            then ((greedyCohort command.policy command.rows order).take
              command.policy.cohortSize).map (·.securityId) else [],
          scanOf command order), conflicts') := by
  obtain ⟨conflicts', hknown', hscan⟩ := scanFrom_eq h hknown (List.nil_subset _) horder
  refine ⟨conflicts', hknown', ?_⟩
  rw [SelectionConstraints.scan, ← List.map_nil, hscan]
  dsimp only [Option.bind_eq_bind, Option.bind_some]
  rw [List.length_map]
  have hsize : (SelectionConstraints.ofCommand command).policy.cohortSize =
      command.policy.cohortSize := rfl
  rw [hsize]
  have hiff := @length_membersUpTo_eq_iff _ (admitsRow command.policy command.rows) [] order
    command.policy.cohortSize command.policy.cohortSize_pos
  by_cases hfull : command.policy.cohortSize ≤
      (greedyCohort command.policy command.rows order).length
  · rw [if_pos (hiff.mpr hfull), if_pos hfull, membersUpTo_eq_take command.policy.cohortSize_pos,
      List.map_map]
    rfl
  · rw [if_neg (mt hiff.mp hfull), if_neg hfull]
    rfl

end Scan

end StockProfiler.CandidateSelection
