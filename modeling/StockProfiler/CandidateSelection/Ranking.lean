import StockProfiler.CandidateSelection.Selection

/-!
# The ranking

Rows are ranked by exact weighted mid-rank percentiles. The ranking depends on the rows as a set:
not on their order, and not on the tables in which the scores are kept.
-/

namespace StockProfiler.CandidateSelection

variable (values : List ℚ)

/-- The mean of the first and the last place that a value has among ascending values. -/
def midRank (value : ℚ) : ℚ :=
  ((values.countP (· < value) : ℚ) + ((values.countP (· ≤ value) : ℚ) - 1)) / 2

/-- The mid-rank of a value in percent of the last place. -/
def midRankPercentile (value : ℚ) : ℚ :=
  midRank values value * 100 / (max 1 (values.length - 1) : ℕ)

theorem countP_le_eq (value : ℚ) : values.countP (· ≤ value) =
    values.countP (· < value) + values.countP (· = value) := by
  induction values with
  | nil => rfl
  | cons v values ih =>
    rw [List.countP_cons, List.countP_cons, List.countP_cons, ih]
    rcases lt_trichotomy v value with h | h | h
    · simp [h, h.le, h.ne]
      omega
    · simp [h]
      omega
    · simp [h.not_ge, h.not_gt, h.ne']

/-- The values below a value and half of its ties make its mid-rank. -/
theorem midRank_eq (value : ℚ) : (values.countP (· < value) : ℚ) +
    ((values.countP (· = value) : ℚ) - 1) / 2 = midRank values value := by
  rw [midRank, countP_le_eq, Nat.cast_add]
  ring

theorem midRankPercentile_perm {values others : List ℚ} (h : values.Perm others) (value : ℚ) :
    midRankPercentile values value = midRankPercentile others value := by
  rw [midRankPercentile, midRankPercentile, midRank, midRank, h.countP_eq, h.countP_eq,
    h.length_eq]

section Rows

variable (policy : SelectionPolicy) (rows : List ScreeningRow)

/-- The exact weighted mid-rank percentile of a row. -/
def weightedScore (row : ScreeningRow) : ℚ :=
  (policy.positiveWeight * midRankPercentile (rows.map (·.positive)) row.positive
    + policy.terminalWeight * midRankPercentile (rows.map (·.terminal)) row.terminal)
    / (policy.positiveWeight + policy.terminalWeight)

/-- A row comes before another one: by a higher score, or by its identity. -/
def RankedBefore (first later : ScreeningRow) : Prop :=
  weightedScore policy rows later < weightedScore policy rows first ∨
    weightedScore policy rows first = weightedScore policy rows later ∧
      first.securityId < later.securityId

/-- What the order of the rows compares. -/
def rowKey (row : ScreeningRow) : ℚ ×ₗ String :=
  toLex (-weightedScore policy rows row, row.securityId)

/-- The rows in the order of their ranks. -/
def rankedRows : List ScreeningRow :=
  rows.insertionSort fun first later => rowKey policy rows first ≤ rowKey policy rows later

/-- The place of a row in the ranking. -/
def rankEntry (ctx : DecimalContext) (index : ℕ) (row : ScreeningRow) : ScreeningRank where
  securityId := row.securityId
  rank := index + 1
  positivePercentile :=
    projectFraction ctx (midRankPercentile (rows.map (·.positive)) row.positive)
  terminalPercentile :=
    projectFraction ctx (midRankPercentile (rows.map (·.terminal)) row.terminal)
  compositeScore := projectFraction ctx (weightedScore policy rows row)

end Rows

variable {ctx : DecimalContext} {policy : SelectionPolicy} {rows others : List ScreeningRow}
  {row : ScreeningRow}

theorem rankedRows_perm : (rankedRows policy rows).Perm rows := List.perm_insertionSort _ _

theorem mem_rankedRows : row ∈ rankedRows policy rows ↔ row ∈ rows := rankedRows_perm.mem_iff

theorem rowKey_nodup (hids : (rows.map (·.securityId)).Nodup) :
    (rows.map (rowKey policy rows)).Nodup := by
  rw [List.nodup_map_iff_inj_on (List.Nodup.of_map _ hids)]
  intro first hfirst later hlater heq
  exact List.inj_on_of_nodup_map hids hfirst hlater (congrArg (fun key => (ofLex key).2) heq)

theorem rowKey_lt_iff {first later : ScreeningRow} :
    rowKey policy rows first < rowKey policy rows later ↔
      RankedBefore policy rows first later := by
  rw [rowKey, rowKey, Prod.Lex.toLex_lt_toLex, RankedBefore, neg_lt_neg_iff, neg_inj]

section

variable (hids : (rows.map (·.securityId)).Nodup)
include hids

theorem rankedRows_sorted : (rankedRows policy rows).Pairwise (RankedBefore policy rows) :=
  (pairwise_lt_insertionSort (rowKey policy rows) (rowKey_nodup hids)).imp rowKey_lt_iff.mp

/-- A table by identity shows what was filed for a row. -/
theorem percentileOf_ofLast (value : ScreeningRow → ℚ) (hrow : row ∈ rows) :
    percentileOf (Dict.ofLast (rows.map fun row => (row.securityId, value row)))
      row.securityId = value row := by
  have hkeys : ((rows.map fun row => (row.securityId, value row)).map Prod.fst).Nodup := by
    rw [List.map_map]
    exact hids
  rw [percentileOf, Dict.ofLast_of_nodup hkeys,
    Dict.get?_of_mem hkeys (List.mem_map_of_mem (f := fun row => (row.securityId, value row)) hrow),
    Option.getD_some]

theorem percentileOf_percentiles (field : ScreeningRow → ℚ) (hrow : row ∈ rows) :
    percentileOf (percentiles rows field) row.securityId =
      midRankPercentile (rows.map field) (field row) := by
  rw [percentiles, percentileOf_ofLast hids _ hrow, midRankPercentile, midRank_eq, List.length_map]

theorem percentileOf_scores (hrow : row ∈ rows) :
    percentileOf (scores policy rows) row.securityId = weightedScore policy rows row := by
  rw [scores, percentileOf_ofLast hids _ hrow, percentileOf_percentiles hids _ hrow,
    percentileOf_percentiles hids _ hrow, weightedScore]

theorem rankedIds_eq : rankedIds policy rows = (rankedRows policy rows).map (·.securityId) := by
  have hkeys : (scores policy rows).keys = rows.map (·.securityId) := by
    rw [scores, Dict.ofLast_of_nodup, Dict.keys, List.map_map]
    · rfl
    · rw [List.map_map]
      exact hids
  rw [rankedIds, hkeys, rankedRows]
  refine (List.map_insertionSort _ _ _ _ fun first hfirst later hlater => ?_).symm
  rw [rankKey, rankKey, percentileOf_scores hids hfirst, percentileOf_scores hids hlater]
  rfl

/-- The ranking lists the rows in the order of their scores. -/
theorem rankingOf_eq : rankingOf ctx policy rows =
    (rankedRows policy rows).mapIdx (rankEntry policy rows ctx) := by
  rw [rankingOf, rankedIds_eq hids, List.mapIdx_eq_zipIdx_map, List.mapIdx_eq_zipIdx_map,
    List.zipIdx_map, List.map_map]
  refine List.map_congr_left fun entry hentry => ?_
  have hrow : entry.1 ∈ rows := mem_rankedRows.mp (List.fst_mem_of_mem_zipIdx hentry)
  dsimp only [Function.comp_apply, Prod.map_fst, Prod.map_snd, id_eq]
  rw [percentileOf_percentiles hids _ hrow, percentileOf_percentiles hids _ hrow,
    percentileOf_scores hids hrow]
  rfl

end

theorem weightedScore_perm (h : rows.Perm others) :
    weightedScore policy rows = weightedScore policy others := by
  funext row
  rw [weightedScore, weightedScore, midRankPercentile_perm (h.map _),
    midRankPercentile_perm (h.map _)]

theorem rankEntry_perm (h : rows.Perm others) :
    rankEntry policy rows ctx = rankEntry policy others ctx := by
  funext index row
  rw [rankEntry, rankEntry, weightedScore_perm h, midRankPercentile_perm (h.map _),
    midRankPercentile_perm (h.map _)]

theorem rankedRows_congr (h : rows.Perm others) (hids : (rows.map (·.securityId)).Nodup) :
    rankedRows policy rows = rankedRows policy others := by
  have hothers : (others.map (·.securityId)).Nodup := (h.map _).nodup_iff.mp hids
  have hkey : rowKey policy others = rowKey policy rows := by
    funext row
    rw [rowKey, rowKey, weightedScore_perm h]
  have hlater := pairwise_lt_insertionSort (rowKey policy others) (rowKey_nodup hothers)
  rw [hkey] at hlater
  refine List.Perm.eq_of_pairwise (fun first later _ _ hlt hgt => absurd hgt hlt.not_gt)
    (pairwise_lt_insertionSort (rowKey policy rows) (rowKey_nodup hids)) ?_
    ((rankedRows_perm.trans h).trans rankedRows_perm.symm)
  rw [rankedRows, hkey]
  exact hlater

end StockProfiler.CandidateSelection
